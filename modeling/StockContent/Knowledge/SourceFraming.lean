import StockContent.Knowledge.ClaimDraft
import StockContent.Text.Leading

/-! Presentation framing at the start of a statement or of a detail: who said it belongs in the attribution. -/
namespace StockContent.Knowledge
open Storage Text

section Forms
variable (tables : CharTables)

def words (ws : List String) : Regex := .choice (ws.map .word)

/-- Separators and blanks. -/
def isSeparator (c : Char) : Bool := "：:，,、".toList.contains c || tables.isSpace c

/-- A form ends in a run of what separates it from the proposition. -/
def form (body : Regex) (trailing : Char → Bool) : Regex := .seq body (.many (.one trailing))

def course : Regex := .seq (.option (.word "本")) (.word "课程")

def attributionBody : Regex :=
  .seq (.alt course (words ["视频", "讲者", "讲师", "老师", "主讲人", "演讲者"]))
    (words ["认为", "称", "表示", "指出", "建议", "强调"])

def attributionPrefix : Regex := form attributionBody (isSeparator tables)

def reportedBody : Regex :=
  .seq (.word "据") (.seq (words ["讲者", "讲师", "老师", "主讲人", "演讲者"]) (.word "介绍"))

def reportedAttributionPrefix : Regex := form reportedBody (isSeparator tables)

def videoDisplayPrefix : Regex := form (.word "视频展示") (isSeparator tables)

def boundaryBody : Regex :=
  .seq (.alt course (.word "视频")) (.seq (words ["展示", "提出", "设置"]) (.oneOf "：:，,"))

def boundaryAttributionPrefix : Regex := form boundaryBody tables.isSpace

def attributionForms : List Regex :=
  [attributionPrefix tables, reportedAttributionPrefix tables, videoDisplayPrefix tables, boundaryAttributionPrefix tables]

def reportedDetail : Regex :=
  .seq (.word "据") (.seq (words ["讲述者", "讲者", "讲师", "老师", "主讲人", "演讲者"])
    (.option (words ["介绍", "表示", "指出"])))

def detailSource : Regex :=
  .seq (.option (.word "本"))
    (words ["讲述者", "讲者", "讲师", "老师", "主讲人", "演讲者", "视频", "节目", "课程", "口播", "转录"])

/-- What may stand between the source and the content. -/
def detailPredicate : Regex :=
  .seq (.option (words ["内容", "文本"])) (.seq (.option (words ["中", "里"]))
    (.seq (.option (words ["首先", "先", "随后"]))
      (.option (words ["认为", "称", "表示", "指出", "建议", "强调", "提到", "展示", "介绍", "说明", "举例说明", "举"]))))

def detailSourceBody : Regex := .alt reportedDetail (.seq detailSource detailPredicate)

def detailSourcePrefix : Regex := form detailSourceBody (isSeparator tables)

theorem attributionForms_consume : ∀ r ∈ attributionForms tables, r.consumes = true := by
  simp only [attributionForms, List.forall_mem_cons, List.not_mem_nil, IsEmpty.forall_iff, implies_true, and_true]
  exact ⟨rfl, rfl, rfl, rfl⟩

theorem detailSourcePrefix_consumes : (detailSourcePrefix tables).consumes = true := rfl

end Forms

section Normalize
variable (tables : CharTables)

/-- The framing forms one after the other. -/
def attributionRound : Shortening where
  round := Regex.dropEach (attributionForms tables)
  shorter _ hchanged :=
    lt_of_le_of_ne (Regex.dropEach_suffix _ _).length_le fun h => hchanged ((Regex.dropEach_suffix _ _).eq_of_length h)

theorem attributionRound_round (text : List Char) :
    (attributionRound tables).round text = Regex.dropEach (attributionForms tables) text := by
  simp only [attributionRound]

def detailStep (text : List Char) : List Char :=
  if text = [] then text else ((detailSourcePrefix tables).after text).elim text (stripChars tables)

theorem detailStep_of_none {text : List Char} (h : (detailSourcePrefix tables).after text = none) :
    detailStep tables text = text := by
  rw [detailStep, h, Option.elim_none, ite_self]

theorem detailStep_of_some {text rest : List Char} (h : (detailSourcePrefix tables).after text = some rest) :
    detailStep tables text = stripChars tables rest ∧ (stripChars tables rest).length < text.length := by
  have hshort := Regex.after_shorter (detailSourcePrefix_consumes tables) h
  have hne : text ≠ [] := List.ne_nil_of_length_pos (Nat.zero_lt_of_lt hshort)
  rw [detailStep, if_neg hne, h, Option.elim_some]
  exact ⟨rfl, (stripChars_length_le tables rest).trans_lt hshort⟩

def detailRound : Shortening where
  round := detailStep tables
  shorter text hchanged := by
    cases h : (detailSourcePrefix tables).after text with
    | none => exact absurd (detailStep_of_none tables h) hchanged
    | some rest =>
      obtain ⟨hstep, hshort⟩ := detailStep_of_some tables h
      rw [hstep]
      exact hshort

def atomicStatement (value : String) : Except ValueError String :=
  let statement := (attributionRound tables).fixedPoint (stripChars tables value.toList)
  if statement = [] then .error ⟨"EMPTY_ATOMIC_STATEMENT"⟩ else .ok (String.ofList statement)

def startsWithDetailSourceFraming (value : String) : Bool :=
  ((detailSourcePrefix tables).after (stripChars tables value.toList)).isSome

def normalizeDetailText (value : String) : Except ValueError String :=
  let detail := (detailRound tables).fixedPoint (stripChars tables value.toList)
  if detail = [] then .error ⟨"EMPTY_KNOWLEDGE_DETAIL"⟩ else .ok (String.ofList detail)

variable {tables} {value statement detail : String} {text rest start : List Char}

/-- A text that is left: an end of the stripped input that does not start with a blank. -/
def Left (tables : CharTables) (start text : List Char) : Prop :=
  text <:+ start ∧ text.head?.any tables.isSpace = false

theorem left_start (tables : CharTables) (text : List Char) :
    Left tables (stripChars tables text) (stripChars tables text) :=
  ⟨List.suffix_rfl, head?_stripChars tables text⟩

/-- After a form, no blank is left at the start. -/
theorem head?_after_form {body : Regex} {trailing : Char → Bool} (hspace : ∀ c, tables.isSpace c = true → trailing c = true)
    (h : (form body trailing).after text = some rest) : rest.head?.any tables.isSpace = false := by
  have hrun := Regex.after_run h
  cases rest with
  | nil => rfl
  | cons c rest =>
    rw [List.head?_cons, Option.any_some] at hrun ⊢
    exact Bool.eq_false_iff.mpr fun hc => Bool.eq_false_iff.mp hrun (hspace c hc)

theorem isSeparator_of_isSpace (c : Char) (h : tables.isSpace c = true) : isSeparator tables c = true := by
  rw [isSeparator, h, Bool.or_true]

theorem attributionForms_shape {r : Regex} (h : r ∈ attributionForms tables) :
    ∃ body trailing, r = form body trailing ∧ ∀ c, tables.isSpace c = true → trailing c = true := by
  simp only [attributionForms, List.mem_cons, List.not_mem_nil, or_false] at h
  rcases h with rfl | rfl | rfl | rfl
  · exact ⟨_, _, rfl, isSeparator_of_isSpace⟩
  · exact ⟨_, _, rfl, isSeparator_of_isSpace⟩
  · exact ⟨_, _, rfl, isSeparator_of_isSpace⟩
  · exact ⟨_, _, rfl, fun _ => id⟩

theorem left_dropLeading {r : Regex} (hr : r ∈ attributionForms tables) (h : Left tables start text) :
    Left tables start (r.dropLeading text) := by
  obtain ⟨body, trailing, rfl, hspace⟩ := attributionForms_shape hr
  refine ⟨(Regex.dropLeading_suffix _ _).trans h.1, ?_⟩
  rw [Regex.dropLeading]
  cases hafter : (form body trailing).after text with
  | none => exact h.2
  | some rest => exact head?_after_form hspace hafter

theorem left_dropEach {rs : List Regex} (hrs : ∀ r ∈ rs, r ∈ attributionForms tables) (h : Left tables start text) :
    Left tables start (Regex.dropEach rs text) := by
  induction rs generalizing text with
  | nil => exact h
  | cons r rs ih =>
    obtain ⟨hr, hrs⟩ := List.forall_mem_cons.mp hrs
    exact ih hrs (left_dropLeading hr h)

theorem left_attributionRound (h : Left tables start text) : Left tables start ((attributionRound tables).round text) := by
  rw [attributionRound_round]
  exact left_dropEach (fun _ hr => hr) h

theorem left_detailStep (hstart : stripChars tables start = start) (h : Left tables start text) :
    Left tables start (detailStep tables text) := by
  cases hafter : (detailSourcePrefix tables).after text with
  | none =>
    rw [detailStep_of_none tables hafter]
    exact h
  | some rest =>
    have hrest : rest <:+ start := (Regex.after_suffix hafter).trans h.1
    have hhead := head?_after_form isSeparator_of_isSpace hafter
    rw [(detailStep_of_some tables hafter).1, stripChars_suffix (by rwa [hstart]) hhead]
    exact ⟨hrest, hhead⟩

theorem stripChars_stripChars (tables : CharTables) (text : List Char) :
    stripChars tables (stripChars tables text) = stripChars tables text :=
  stripChars_suffix List.suffix_rfl (head?_stripChars tables text)

/-- What is returned is stripped, an end of the stripped input, and a fixed point of the rounds. -/
theorem fixedPoint_left {f : Shortening} (hround : ∀ text, Left tables (stripChars tables start) text →
    Left tables (stripChars tables start) (f.round text)) :
    Left tables (stripChars tables start) (f.fixedPoint (stripChars tables start)) ∧
      f.fixedPoint (stripChars tables (f.fixedPoint (stripChars tables start))) =
        f.fixedPoint (stripChars tables start) := by
  have hleft := Shortening.fixedPoint_induction hround (left_start tables start)
  refine ⟨hleft, ?_⟩
  rw [stripChars_suffix hleft.1 hleft.2]
  exact Shortening.fixedPoint_of_fixed (Shortening.round_fixedPoint _)

theorem atomicStatement_eq_ok (h : atomicStatement tables value = .ok statement) :
    statement.toList = (attributionRound tables).fixedPoint (stripChars tables value.toList) ∧ statement.toList ≠ [] := by
  rw [atomicStatement] at h
  split at h
  · cases h
  · rename_i hne
    obtain rfl := Except.ok.inj h
    rw [String.toList_ofList]
    exact ⟨rfl, hne⟩

theorem normalizeDetailText_eq_ok (h : normalizeDetailText tables value = .ok detail) :
    detail.toList = (detailRound tables).fixedPoint (stripChars tables value.toList) ∧ detail.toList ≠ [] := by
  rw [normalizeDetailText] at h
  split at h
  · cases h
  · rename_i hne
    obtain rfl := Except.ok.inj h
    rw [String.toList_ofList]
    exact ⟨rfl, hne⟩

/-- The statement without its framing: no form of framing is left at its start. -/
theorem atomicStatement_unframed (h : atomicStatement tables value = .ok statement) :
    ∀ r ∈ attributionForms tables, r.after statement.toList = none := by
  have hfixed := Shortening.round_fixedPoint (f := attributionRound tables) (stripChars tables value.toList)
  rw [← (atomicStatement_eq_ok h).1, attributionRound_round] at hfixed
  exact (Regex.dropEach_eq_self_iff (attributionForms_consume tables)).mp hfixed

theorem atomicStatement_suffix (h : atomicStatement tables value = .ok statement) :
    statement.toList <:+ (strip tables value).toList ∧ atomicStatement tables statement = .ok statement := by
  obtain ⟨heq, hne⟩ := atomicStatement_eq_ok h
  obtain ⟨hleft, hagain⟩ := @fixedPoint_left tables value.toList (attributionRound tables) fun _ => left_attributionRound
  rw [← heq] at hleft hagain
  refine ⟨?_, ?_⟩
  · rw [strip, String.toList_ofList]
    exact hleft.1
  · rw [atomicStatement, hagain, if_neg hne, String.ofList_toList]

theorem normalizeDetailText_unframed (h : normalizeDetailText tables value = .ok detail) :
    (detailSourcePrefix tables).after detail.toList = none := by
  have hfixed := Shortening.round_fixedPoint (f := detailRound tables) (stripChars tables value.toList)
  rw [← (normalizeDetailText_eq_ok h).1] at hfixed
  by_contra hsome
  obtain ⟨rest, hrest⟩ := Option.ne_none_iff_exists'.mp hsome
  obtain ⟨hstep, hshort⟩ := detailStep_of_some tables hrest
  have hsame : detailStep tables detail.toList = detail.toList := hfixed
  rw [← hstep, hsame] at hshort
  exact absurd hshort (Nat.lt_irrefl _)

theorem normalizeDetailText_suffix (h : normalizeDetailText tables value = .ok detail) :
    detail.toList <:+ (strip tables value).toList ∧ stripChars tables detail.toList = detail.toList ∧
      normalizeDetailText tables detail = .ok detail := by
  obtain ⟨heq, hne⟩ := normalizeDetailText_eq_ok h
  obtain ⟨hleft, hagain⟩ := @fixedPoint_left tables value.toList (detailRound tables)
    fun _ => left_detailStep (stripChars_stripChars tables _)
  rw [← heq] at hleft hagain
  refine ⟨?_, stripChars_suffix hleft.1 hleft.2, ?_⟩
  · rw [strip, String.toList_ofList]
    exact hleft.1
  · rw [normalizeDetailText, hagain, if_neg hne, String.ofList_toList]

end Normalize

section Forms
variable {tables : CharTables} {here : Place} {ws ws' : List String} {text : List Char}

def Reads (r : Regex) (here : Place) : Prop := ∃ last, last ∈ r.ends here

theorem reads_seq {r r' : Regex} {s s' : Regex} (hr : ∀ here last, last ∈ r.ends here → last ∈ r'.ends here)
    (hs : ∀ here, Reads s here → Reads s' here) (h : Reads (.seq r s) here) : Reads (.seq r' s') here := by
  obtain ⟨last, hlast⟩ := h
  obtain ⟨middle, hmiddle, hrest⟩ := Regex.mem_ends_seq.mp hlast
  obtain ⟨last', hlast'⟩ := hs middle ⟨last, hrest⟩
  exact ⟨last', Regex.mem_ends_seq.mpr ⟨middle, hr _ _ hmiddle, hlast'⟩⟩

theorem reads_seq_first {r s : Regex} (h : Reads (.seq r s) here) : Reads r here := by
  obtain ⟨last, hlast⟩ := h
  obtain ⟨middle, hmiddle, -⟩ := Regex.mem_ends_seq.mp hlast
  exact ⟨middle, hmiddle⟩

theorem mem_words_subset (hsub : ∀ w ∈ ws, w ∈ ws') {here last : Place} (h : last ∈ (words ws).ends here) :
    last ∈ (words ws').ends here := by
  rw [words, Regex.mem_ends_choice] at h ⊢
  obtain ⟨r, hr, hlast⟩ := h
  obtain ⟨w, hw, rfl⟩ := List.mem_map.mp hr
  exact ⟨_, List.mem_map_of_mem (hsub w hw), hlast⟩

theorem mem_words_of_word {w : String} (hw : w ∈ ws) {here last : Place} (h : last ∈ (Regex.word w).ends here) :
    last ∈ (words ws).ends here :=
  Regex.mem_ends_choice.mpr ⟨_, List.mem_map_of_mem hw, h⟩

theorem reads_option (r : Regex) (here : Place) : Reads (.option r) here := ⟨here, Regex.mem_ends_option r here⟩

/-- Every part of the predicate may be left out. -/
theorem reads_detailPredicate (here : Place) : Reads detailPredicate here :=
  ⟨here, Regex.mem_ends_seq.mpr ⟨here, Regex.mem_ends_option _ here, Regex.mem_ends_seq.mpr ⟨here,
    Regex.mem_ends_option _ here, Regex.mem_ends_seq.mpr ⟨here, Regex.mem_ends_option _ here,
      Regex.mem_ends_option _ here⟩⟩⟩⟩

theorem reads_detailSourceBody (h : Reads detailSource here) : Reads detailSourceBody here := by
  obtain ⟨middle, hmiddle⟩ := h
  obtain ⟨last, hlast⟩ := reads_detailPredicate middle
  exact ⟨last, Regex.mem_ends_alt.mpr (.inr (Regex.mem_ends_seq.mpr ⟨middle, hmiddle, hlast⟩))⟩

/-- A source that a form names is a source of details. -/
theorem reads_detailSource (hsub : ∀ w ∈ ws, w ∈ ["讲述者", "讲者", "讲师", "老师", "主讲人", "演讲者", "视频", "节目", "课程", "口播", "转录"])
    (h : Reads (.alt course (words ws)) here) : Reads detailSource here := by
  obtain ⟨last, hlast⟩ := h
  rcases Regex.mem_ends_alt.mp hlast with hcourse | hword
  · obtain ⟨middle, hmiddle, hrest⟩ := Regex.mem_ends_seq.mp hcourse
    exact ⟨last, Regex.mem_ends_seq.mpr ⟨middle, hmiddle, mem_words_of_word (by decide) hrest⟩⟩
  · exact ⟨last, Regex.mem_ends_seq.mpr ⟨here, Regex.mem_ends_option _ here, mem_words_subset hsub hword⟩⟩

/-- Where a detail starts with no source, no form of attribution matches it. -/
theorem attributionForms_of_detail (h : (detailSourcePrefix tables).after text = none) :
    ∀ r ∈ attributionForms tables, r.after text = none := by
  rw [detailSourcePrefix, form, Regex.after_run_eq_none_iff, Regex.after_eq_none_iff] at h
  have hnone : ¬Reads detailSourceBody (none, text) := by
    rintro ⟨last, hlast⟩
    rw [h] at hlast
    cases hlast
  have hbody {body : Regex} {trailing : Char → Bool} (hreads : Reads body (none, text) → Reads detailSourceBody (none, text)) :
      (form body trailing).after text = none := by
    rw [form, Regex.after_run_eq_none_iff, Regex.after_eq_none_iff, List.eq_nil_iff_forall_not_mem]
    exact fun last hlast => hnone (hreads ⟨last, hlast⟩)
  have hattribution : Reads attributionBody (none, text) → Reads detailSourceBody (none, text) := fun hreads =>
    reads_detailSourceBody (reads_detailSource (by decide) (reads_seq_first hreads))
  have hreported : Reads reportedBody (none, text) → Reads detailSourceBody (none, text) := by
    intro hreads
    have hmore : Reads reportedDetail (none, text) := by
      refine reads_seq (fun _ _ => id) (fun middle hmiddle => ?_) hreads
      exact reads_seq (fun _ _ => mem_words_subset (by decide)) (fun last _ => reads_option _ last) hmiddle
    obtain ⟨last, hlast⟩ := hmore
    exact ⟨last, Regex.mem_ends_alt.mpr (.inl hlast)⟩
  have hvideo : Reads (.word "视频展示") (none, text) → Reads detailSourceBody (none, text) := by
    intro hreads
    have hvideo : "视频".toList <+: text := (by decide : "视频".toList <+: "视频展示".toList).trans (Regex.reads_word_iff.mp hreads)
    obtain ⟨last, hlast⟩ := (@Regex.reads_word_iff (none, text) "视频").mpr hvideo
    refine reads_detailSourceBody ⟨last, Regex.mem_ends_seq.mpr ⟨_, Regex.mem_ends_option _ _, ?_⟩⟩
    exact mem_words_of_word (by decide) hlast
  have hboundary : Reads boundaryBody (none, text) → Reads detailSourceBody (none, text) := fun hreads =>
    reads_detailSourceBody (@reads_detailSource _ ["视频"] (by decide) (reads_seq_first hreads))
  simp only [attributionForms, List.forall_mem_cons, List.not_mem_nil, IsEmpty.forall_iff, implies_true, and_true]
  exact ⟨hbody hattribution, hbody hreported, hbody hvideo, hbody hboundary⟩

end Forms

section Check
variable (tables : CharTables) (str : Json → String)

def allowedDetail : List String := ["explanation", "mechanism", "procedure", "formula", "example", "scope", "risks"]

/-- `str(value or "").strip()`. -/
def detailText (value : Json) : String := strip tables (Json.orText str (some value))

def detailValues (fields : List (String × Json)) : List String :=
  (fields.map fun f => detailText tables str f.2).filter (· ≠ "")

/-- Whether every value, read as a statement, is the statement; the first one that is not ends the search. -/
def copies (statement : String) : List String → Except ValueError Bool
  | [] => .ok true
  | value :: values => do
    let read ← atomicStatement tables value
    if read = statement then copies statement values else .ok false

/-- The checks on the detail of an item whose statement has been read. -/
def checkDetail (statement : String) (detail : Json) : Except ValueError Unit :=
  match detail with
  | .obj fields => do
    let values := detailValues tables str fields
    require ⟨"INVALID_KNOWLEDGE_DETAIL"⟩ (fields.all (fun f => allowedDetail.contains f.1) && !values.isEmpty)
    let copied ← copies tables statement values
    require ⟨"NONTRIVIAL_KNOWLEDGE_DETAIL_REQUIRED"⟩ (!copied)
    require ⟨"SOURCE_FRAMING_IN_KNOWLEDGE_DETAIL"⟩ (!values.any (startsWithDetailSourceFraming tables))
  | _ => .error ⟨"INVALID_KNOWLEDGE_DETAIL"⟩

/-- A field as the normalization leaves it: absent, or a text that it returned. -/
def Normalized (value : Json) : Prop :=
  value = .null ∨ ∃ raw detail, normalizeDetailText tables raw = .ok detail ∧ value = .str detail

variable {tables str} {statement value detail raw : String} {fields : List (String × Json)} {values : List String}

/-- A normalized detail reads as itself. -/
theorem atomicStatement_normalized (h : normalizeDetailText tables raw = .ok detail) :
    atomicStatement tables detail = .ok detail := by
  obtain ⟨-, hstrip, -⟩ := normalizeDetailText_suffix h
  have hforms := attributionForms_of_detail (normalizeDetailText_unframed h)
  have hround : (attributionRound tables).round detail.toList = detail.toList := by
    rw [attributionRound_round]
    exact (Regex.dropEach_eq_self_iff (attributionForms_consume tables)).mpr hforms
  rw [atomicStatement, hstrip, Shortening.fixedPoint_of_fixed hround, if_neg (normalizeDetailText_eq_ok h).2,
    String.ofList_toList]

theorem startsWith_normalized (h : normalizeDetailText tables raw = .ok detail) :
    startsWithDetailSourceFraming tables detail = false := by
  rw [startsWithDetailSourceFraming, (normalizeDetailText_suffix h).2.1, normalizeDetailText_unframed h]
  rfl

theorem copies_eq (h : ∀ value ∈ values, atomicStatement tables value = .ok value) :
    copies tables statement values = .ok (values.all (· = statement)) := by
  induction values with
  | nil => rfl
  | cons value values ih =>
    obtain ⟨hvalue, hvalues⟩ := List.forall_mem_cons.mp h
    rw [copies, hvalue, ok_bind, List.all_cons]
    by_cases hsame : value = statement
    · rw [if_pos hsame, ih hvalues, decide_eq_true hsame, Bool.true_and]
    · rw [if_neg hsame, decide_eq_false hsame, Bool.false_and]

theorem detailText_normalized (h : normalizeDetailText tables raw = .ok detail) :
    detailText tables str (.str detail) = detail ∧ detail ≠ "" := by
  have hne : detail ≠ "" := by
    rintro rfl
    exact (normalizeDetailText_eq_ok h).2 rfl
  refine ⟨?_, hne⟩
  rw [detailText, Json.orText_str, strip, (normalizeDetailText_suffix h).2.1, String.ofList_toList]

theorem mem_detailValues (h : ∀ f ∈ fields, Normalized tables f.2) :
    value ∈ detailValues tables str fields ↔ ∃ f ∈ fields, f.2 = .str value := by
  rw [detailValues, List.mem_filter, List.mem_map, decide_eq_true_iff]
  constructor
  · rintro ⟨⟨f, hf, rfl⟩, hne⟩
    rcases h f hf with hnull | hdetail
    · rw [hnull] at hne
      exact absurd rfl hne
    · obtain ⟨raw, detail, hdetail, hf2⟩ := hdetail
      refine ⟨f, hf, ?_⟩
      rw [hf2, (detailText_normalized hdetail).1]
  · rintro ⟨f, hf, hf2⟩
    rcases h f hf with hnull | hdetail
    · rw [hnull] at hf2
      cases hf2
    · obtain ⟨raw, detail, hdetail, hf3⟩ := hdetail
      obtain rfl := Json.str.inj (hf2.symm.trans hf3)
      obtain ⟨htext, hne⟩ := @detailText_normalized tables str _ _ hdetail
      refine ⟨⟨f, hf, ?_⟩, hne⟩
      rw [hf2, htext]

theorem detailValues_normalized (h : ∀ f ∈ fields, Normalized tables f.2) :
    ∀ value ∈ detailValues tables str fields, ∃ raw, normalizeDetailText tables raw = .ok value := by
  intro value hvalue
  obtain ⟨f, hf, hf2⟩ := (mem_detailValues h).mp hvalue
  rcases h f hf with hnull | hdetail
  · rw [hnull] at hf2
    cases hf2
  · obtain ⟨raw, detail, hdetail, hf3⟩ := hdetail
    obtain rfl := Json.str.inj (hf2.symm.trans hf3)
    exact ⟨raw, hdetail⟩

/-- Normalized details are accepted, unless every one of them is the statement. -/
theorem checkDetail_normalized (hkeys : ∀ f ∈ fields, f.1 ∈ allowedDetail) (h : ∀ f ∈ fields, Normalized tables f.2)
    (hsome : ∃ f ∈ fields, f.2 ≠ .null) :
    checkDetail tables str statement (.obj fields) =
      if ∀ f ∈ fields, f.2 = .null ∨ f.2 = .str statement then .error ⟨"NONTRIVIAL_KNOWLEDGE_DETAIL_REQUIRED"⟩
      else .ok () := by
  have hvalues := @detailValues_normalized tables str fields h
  have hnonempty : (detailValues tables str fields).isEmpty = false := by
    obtain ⟨f, hf, hne⟩ := hsome
    obtain ⟨raw, detail, -, hf2⟩ := (h f hf).resolve_left hne
    exact List.isEmpty_eq_false_iff.mpr (List.ne_nil_of_mem ((mem_detailValues h).mpr ⟨f, hf, hf2⟩))
  have hall : fields.all (fun f => allowedDetail.contains f.1) = true :=
    List.all_eq_true.mpr fun f hf => List.contains_iff_mem.mpr (hkeys f hf)
  have hcopies : copies tables statement (detailValues tables str fields) =
      .ok ((detailValues tables str fields).all (· = statement)) := by
    refine copies_eq fun value hvalue => ?_
    obtain ⟨raw, hraw⟩ := hvalues value hvalue
    exact atomicStatement_normalized hraw
  have hframing : (detailValues tables str fields).any (startsWithDetailSourceFraming tables) = false := by
    rw [List.any_eq_false]
    intro value hvalue
    obtain ⟨raw, hraw⟩ := hvalues value hvalue
    rw [startsWith_normalized hraw]
    exact Bool.false_ne_true
  have hsame : (detailValues tables str fields).all (· = statement) = true ↔
      ∀ f ∈ fields, f.2 = .null ∨ f.2 = .str statement := by
    simp only [List.all_eq_true, decide_eq_true_eq, mem_detailValues h]
    constructor
    · intro hcopied f hf
      rcases h f hf with hnull | hdetail
      · exact .inl hnull
      · obtain ⟨raw, detail, -, hf2⟩ := hdetail
        rw [hf2, hcopied detail ⟨f, hf, hf2⟩]
        exact .inr rfl
    · rintro hcopied value ⟨f, hf, hf2⟩
      rcases hcopied f hf with hnull | hstatement
      · rw [hnull] at hf2
        cases hf2
      · exact Json.str.inj (hf2.symm.trans hstatement)
  rw [checkDetail]
  rw [hall, hnonempty, hcopies, hframing]
  by_cases hcopied : ∀ f ∈ fields, f.2 = .null ∨ f.2 = .str statement
  · rw [if_pos hcopied, hsame.mpr hcopied]
    rfl
  · rw [if_neg hcopied, Bool.eq_false_iff.mpr fun htrue => hcopied (hsame.mp htrue)]
    rfl

/-- Source framing is stripped to a fixed point. Details without it pass the checks of the Bundle, unless all of them
copy the statement. -/
theorem framing_stripped (tables : CharTables) (str : Json → String) (value : String) :
    (∀ statement, atomicStatement tables value = .ok statement →
      statement.toList <:+ (strip tables value).toList ∧ atomicStatement tables statement = .ok statement ∧
        ∀ r ∈ attributionForms tables, r.after statement.toList = none) ∧
    (∀ detail, normalizeDetailText tables value = .ok detail →
      detail.toList <:+ (strip tables value).toList ∧ normalizeDetailText tables detail = .ok detail ∧
        (detailSourcePrefix tables).after detail.toList = none) ∧
    ∀ statement fields, (∀ f ∈ fields, f.1 ∈ allowedDetail) → (∀ f ∈ fields, Normalized tables f.2) →
      (∃ f ∈ fields, f.2 ≠ .null) →
      checkDetail tables str statement (.obj fields) =
        if ∀ f ∈ fields, f.2 = .null ∨ f.2 = .str statement then .error ⟨"NONTRIVIAL_KNOWLEDGE_DETAIL_REQUIRED"⟩
        else .ok () := by
  refine ⟨?_, ?_, ?_⟩
  · intro statement h
    obtain ⟨hsuffix, hagain⟩ := atomicStatement_suffix h
    exact ⟨hsuffix, hagain, atomicStatement_unframed h⟩
  · intro detail h
    obtain ⟨hsuffix, -, hagain⟩ := normalizeDetailText_suffix h
    exact ⟨hsuffix, hagain, normalizeDetailText_unframed h⟩
  · intro statement fields hkeys h hsome
    exact checkDetail_normalized hkeys h hsome

theorem nested_framing : atomicStatement plainTables " 视频展示：讲者认为：价格上涨" = .ok "价格上涨" := by
  have hround : (attributionRound plainTables).fixedPoint (stripChars plainTables " 视频展示：讲者认为：价格上涨".toList) =
      "价格上涨".toList := by
    rw [Shortening.fixedPoint, if_neg (by decide), Shortening.fixedPoint, if_neg (by decide),
      Shortening.fixedPoint_of_fixed (by decide)]
    decide
  rw [atomicStatement, hround]
  rfl

theorem plain_detail : normalizeDetailText plainTables "价格上涨" = .ok "价格上涨" := by
  rw [normalizeDetailText, Shortening.fixedPoint_of_fixed (by decide)]
  decide

theorem nested_framing_stripped :
    "价格上涨".toList <:+ (strip plainTables " 视频展示：讲者认为：价格上涨").toList ∧
      normalizeDetailText plainTables "价格上涨" = .ok "价格上涨" ∧
      checkDetail plainTables (fun _ => "") "需求增长" (.obj [("explanation", .str "价格上涨"), ("risks", .null)]) = .ok () := by
  refine ⟨((framing_stripped plainTables (fun _ => "") _).1 _ nested_framing).1,
    ((framing_stripped plainTables (fun _ => "") _).2.1 _ plain_detail).2.1, ?_⟩
  have hnormalized : ∀ f ∈ [("explanation", Json.str "价格上涨"), ("risks", .null)], Normalized plainTables f.2 := by
    simp only [List.forall_mem_cons, List.not_mem_nil, IsEmpty.forall_iff, implies_true, and_true]
    exact ⟨.inr ⟨_, _, plain_detail, rfl⟩, .inl rfl⟩
  rw [(framing_stripped plainTables (fun _ => "") "").2.2 _ _ (by decide) hnormalized ⟨_, List.mem_cons_self, nofun⟩]
  exact if_neg (by decide)

/-- A detail that the normalization returned is rejected where it copies the statement. -/
theorem copied_detail_rejected :
    normalizeDetailText plainTables "价格上涨" = .ok "价格上涨" ∧
      checkDetail plainTables (fun _ => "") "价格上涨" (.obj [("explanation", .str "价格上涨")]) =
        .error ⟨"NONTRIVIAL_KNOWLEDGE_DETAIL_REQUIRED"⟩ := by
  have hnormalized : ∀ f ∈ [("explanation", Json.str "价格上涨")], Normalized plainTables f.2 := by
    simp only [List.forall_mem_cons, List.not_mem_nil, IsEmpty.forall_iff, implies_true, and_true]
    exact .inr ⟨_, _, plain_detail, rfl⟩
  refine ⟨plain_detail, ?_⟩
  rw [checkDetail_normalized (by decide) hnormalized ⟨_, List.mem_cons_self, nofun⟩]
  exact if_pos (by decide)

end Check
end StockContent.Knowledge
