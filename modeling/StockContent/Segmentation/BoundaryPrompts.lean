import Mathlib.Algebra.GroupWithZero.Nat
import StockContent.Segmentation.SemanticSegment
import StockContent.Storage.CanonicalText

/-! What a model is asked, what a prompt costs, and the blocks of rows that one prompt holds. -/
namespace StockContent.Segmentation
open Storage

section Instructions

def boundaryInstruction : String :=
  "You are Stage 1 semantic segmentation. Return topic labels and boundaries only; never claims, " ++
    "values, dates, " ++
    "timestamps, evidence, summaries, or copied transcript text. Produce full contiguous coverage: " ++
    "a new segment starts only at a substantive topic, subject or independent conclusion change. " ++
    "Keep one thesis, its evidence, risks, conditions and closing recap together. " ++
    "Attach brief asides, greetings, self-corrections and filler to adjacent substantive discussion; " ++
    "a brief subject-specific view about a named asset, sector or company is substantive, not filler. " ++
    "separate independent advertisements, disclaimers and unrelated substantive Q&A. " ++
    "Do not split at a fixed elapsed time, block edge, or target segment count; the subject change must " ++
    "be supported by the words on both sides of the boundary. " ++
    "Name the first topic and every next topic with the concrete subject and thesis from nearby words; " ++
    "avoid generic labels such as investment direction, market analysis, or next topic. " ++
    "For each boundary give the next topic and subject when known. Do not invent entities. No overlapping " ++
    "segments and no gaps are allowed; long blocks may overlap, so adjudicate a shared boundary using the " ++
    "strongest local evidence and confidence. Return exactly " ++
    "\x7b\"initial_topic\":str,\"initial_subject\":str|null,\"boundaries\":" ++
    "[\x7b\"after_segment_index\":int,\"boundary_type\":str,\"next_topic\":str|null," ++
    "\"next_subject\":str|null,\"confidence\":number|null\x7d]\x7d and no prose. " ++
    "confidence 必须为 null 或 [0,1]（含端点）内的有限 JSON number；不得使用百分制（例如 100）。\n"

def refinementInstruction : String :=
  "\nThis is a second look inside one coarse topic. Split only independent subject or thesis changes. " ++
    "A brief but substantive view about a named asset, sector or company is a real topic change. " ++
    "Keep each thesis with its evidence, risks, conclusion and closing recap. " ++
    "A brief aside or conversational interjection is not an independent topic. " ++
    "Do not split a summary or a related detail merely because it is shorter or later."

def topicAuditInstruction : String :=
  "\nAudit topic coverage independently of the previous labels. Find every supported subject-specific " ++
    "view or recommendation about an asset, sector or company, even if brief or omitted from the label. " ++
    "Check each item in a recap list. Split independent views, not one causal thesis. " ++
    "Never turn conversational filler, a greeting or a host-arrival aside into a topic."

def adjudicationInstruction : String :=
  "Adjudicate these proposed INTERNAL topic splits in the full context below. " ++
    "You are a CHAPTER editor, not an atomic-claim splitter. Reject a split that merely separates " ++
    "evidence, a causal mechanism, risk, condition or downstream implication from its parent thesis. " ++
    "A component supply constraint followed by a short supplier-profit qualification is normally " ++
    "one causal discussion; different entity labels alone are not enough. Keep a split for a real " ++
    "transition to another named asset or sector, even if its view is brief. Within one broad field, " ++
    "also keep a split when the central question changes and each side develops its OWN explanation " ++
    "or evidence rather than merely qualifying the prior question. An extended discussion of a new " ++
    "workflow, market structure, technology, data constraint or business model may be its own chapter " ++
    "even within the same industry. A new named policy, negotiation or market event with its OWN " ++
    "outcome and market implication is independent even when introduced as an alternative or with " ++
    "'because/therefore' after another geopolitical story. A shared backdrop or causal connection " ++
    "does not erase a separately developed conclusion; conversely a brief risk qualification remains " ++
    "with its thesis. The parent label may itself be incomplete, so do not use it as a veto. " ++
    "A brief substantive view in a recap can also be independent; a conversational aside is not. " ++
    "Use the words on both sides; never infer from duration or position. Return exactly " ++
    "\x7b\"accepted_after_segment_indices\":[int,...]\x7d with a subset of the proposed coordinates. " ++
    "Do not add coordinates, explanations or any other keys.\n"

def briefLabelInstruction : String :=
  "Independently verify this brief chapter label against ONLY its transcript rows. " ++
    "Correct a mislabeled asset, company, instrument or sector; never substitute a nearby market " ++
    "term for the term actually spoken. Do not infer a full company name or ticker from an unclear " ++
    "abbreviation or ASR homophone. Search ALL rows for a concrete named asset, instrument, company " ++
    "or sector; if one is spoken, subject MUST copy that exact term and topic MUST include it. " ++
    "Do not evade an incorrect candidate by dropping a clearly spoken subject to null. " ++
    "Retain the chapter's objective thesis, not a third-person " ++
    "narration. Return exactly one JSON object with topic (non-empty string), subject (an exact " ++
    "substring copied from one source_quote, or null when no concrete subject is spoken), and " ++
    "source_quote (a non-empty exact substring copied from ONE transcript row). If subject is " ++
    "non-null, include its exact source spelling in topic. Do not add keys or prose.\n"

def boundaryRepairInstruction : String :=
  "\n上一次输出无效。仅修复 JSON schema，仍不得输出 claim 或 timestamp。" ++
    " confidence 必须为 null 或 [0,1]（含端点）内的有限 JSON number；不得使用百分制（例如 100）。" ++
    "\n"

def adjudicationRepairInstruction : String :=
  "\nPrevious output was invalid. Repair JSON schema only; select only proposed integers."

def briefLabelRepairInstruction : String :=
  "\nPrevious output failed exact-quote validation. Repair using only literal row text. " ++
    "If the candidate had a subject, null is invalid: identify the actual spoken term in " ++
    "the rows and copy it exactly, or the whole parse must fail closed."

/-- The legal coordinates of a block, in words. -/
def boundaryCoordinateInstruction (blockStart blockEnd : Int) : String :=
  if blockEnd - 2 < blockStart then
    "This block has no legal after_segment_index: return an empty boundaries list. " ++
      "Never emit " ++ toString (blockEnd - 1) ++ ", the final provided segment."
  else
    "The only legal after_segment_index values for this block are integers in the inclusive range " ++
      "[" ++ toString blockStart ++ ", " ++ toString (blockEnd - 2) ++ "]. Never emit " ++ toString (blockEnd - 1) ++
      ": it is the final " ++ "provided segment and cannot be a boundary."

end Instructions

section Prompts

/-- No prompt holds a number with a fraction. -/
def dumps (v : Json) : String := String.ofList (v.chars fun _ => "")

/-- `item.raw_text or item.text`. -/
def TranscriptSegmentItem.spoken (item : TranscriptSegmentItem) : String :=
  if item.rawText.getD "" = "" then item.text else item.rawText.getD ""

def rowOf (item : TranscriptSegmentItem) : Json :=
  .obj [("segment_index", .int item.segmentIndex), ("text", .str item.spoken)]

def slice (items : List TranscriptSegmentItem) (start stop : Nat) : List TranscriptSegmentItem :=
  (items.take stop).drop start

def boundaryPrompt (items : List TranscriptSegmentItem) (start stop : Nat) : String :=
  boundaryInstruction ++ boundaryCoordinateInstruction start stop ++ "\n" ++
    dumps (.arr ((slice items start stop).map rowOf))

def reviewInstruction (refinement topicAudit : Bool) : String :=
  (if refinement then refinementInstruction else "") ++ if topicAudit then topicAuditInstruction else ""

def adjudicationPrompt (items : List TranscriptSegmentItem) (start stop : Nat) (proposals : List SemanticBoundary)
    (parentTopic parentSubject : Option String) : String :=
  let candidate := fun item : SemanticBoundary => Json.obj [("after_segment_index", .int item.afterSegmentIndex),
    ("next_topic", textOrNull item.nextTopic), ("next_subject", textOrNull item.nextSubject)]
  adjudicationInstruction ++ dumps (.obj [("parent_topic", textOrNull parentTopic),
    ("parent_subject", textOrNull parentSubject), ("proposals", .arr (proposals.map candidate)),
    ("transcript", .arr ((slice items start stop).map rowOf))])

def briefLabelPrompt (rows : List String) (topic subject : Option String) : String :=
  briefLabelInstruction ++ dumps (.obj [("candidate_topic", textOrNull topic), ("candidate_subject", textOrNull subject),
    ("transcript_rows", .arr (rows.map .str))])

end Prompts

section Costs

/-- Four ASCII characters to a token, any other character one. -/
def textTokenCost (text : String) : Nat :=
  let asciiChars := text.toList.countP fun c => c.toNat < 128
  max 1 ((asciiChars + 3) / 4 + (text.length - asciiChars))

def itemTokenCost (item : TranscriptSegmentItem) : Nat := textTokenCost (dumps (rowOf item))

def tokenCount (items : List TranscriptSegmentItem) : Nat := (items.map itemTokenCost).sum

def promptOverhead (refinement topicAudit : Bool) : Nat :=
  textTokenCost (boundaryPrompt [] 0 1 ++ reviewInstruction refinement topicAudit) + 32

end Costs

section Blocks

/-- How many of the rows ahead fit; the first one always does, unless it is over the budget by itself. -/
def fillBlock (rowBudget : Int) : Int → Nat → List Nat → Except SegmentError Nat
  | _, taken, [] => .ok taken
  | budget, taken, cost :: rest => do
    require (.valueError "single transcript segment exceeds the model block token budget") (cost ≤ rowBudget)
    if 0 < taken && rowBudget < budget + cost then return taken
    else fillBlock rowBudget (budget + cost) (taken + 1) rest

/-- The blocks from a row on. The overlap is a third of a block at most, so that each starts after the one before. -/
def blocksFrom (rowBudget : Int) (segmentOverlap : Nat) (costs : List Nat) (start : Nat) :
    Except SegmentError (List (Nat × Nat)) :=
  if start < costs.length then do
    let taken ← fillBlock rowBudget 0 0 (costs.drop start)
    let stop := min costs.length (max (start + 1) (start + taken))
    if stop = costs.length then return [(start, stop)]
    else
      (blocksFrom rowBudget segmentOverlap costs (stop - min segmentOverlap ((stop - start) / 3))).map ((start, stop) :: ·)
  else .ok []
termination_by costs.length - start

end Blocks
end StockContent.Segmentation
