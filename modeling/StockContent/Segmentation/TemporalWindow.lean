import Mathlib.Data.List.Pairwise
import StockContent.Numeric.Binary64
import StockContent.Text.Strip

/-! A transcript is cut into windows of about a target duration; each takes the end of the one before over. -/
namespace StockContent.Segmentation
open Numeric

/-- The durations a builder is set to, in seconds. -/
structure WindowConfig where
  targetSeconds : Int := 90
  maxSeconds : Int := 150
  overlapSeconds : Int := 8
  deriving DecidableEq

structure TimedSegment (Extra : Type) where
  startMs : Option Int
  endMs : Option Int
  text : Option String
  extra : Extra
  deriving DecidableEq

/-- `facts` is what a window says of its frames and speakers. -/
structure TemporalWindow (Extra Facts : Type) where
  windowIndex : Nat
  startMs : Int
  endMs : Int
  segments : List (TimedSegment Extra)
  transcriptText : String
  facts : Facts
  deriving DecidableEq

structure WindowState (Extra Facts : Type) where
  windows : List (TemporalWindow Extra Facts) := []
  current : List (TimedSegment Extra) := []
  currentStart : Option Int := none
  currentEnd : Option Int := none

/-- What a builder takes from the language, and what it reads of the frames. -/
structure WindowRuntime (Extra Facts : Type) where
  tables : Text.CharTables
  facts : List (TimedSegment Extra) → Int → Int → Facts

namespace WindowConfig
variable (config : WindowConfig)

def targetMs : Int := config.targetSeconds * 1000

def maxMs : Int := config.maxSeconds * 1000

def overlapMs : Int := config.overlapSeconds * 1000

/-- `target_duration_ms * 1.35`, a floating point number. -/
def stretchedTarget : Binary64 := (Binary64.ofQuotient (config.targetMs * Binary64.one) 1).mul (Binary64.ofDecimal 135 2)

end WindowConfig

namespace TimedSegment
variable {Extra : Type} (segment : TimedSegment Extra)

def start : Int := segment.startMs.getD 0

/-- `end_ms or start_ms`. -/
def stop : Int :=
  match segment.endMs with
  | some endMs => if endMs = 0 then segment.start else endMs
  | none => segment.start

def stripped (tables : Text.CharTables) : String := Text.strip tables (segment.text.getD "")

end TimedSegment

section Build
variable {Extra Facts : Type} (runtime : WindowRuntime Extra Facts) (config : WindowConfig)

def boundaryMarkers : List String := ["接下来", "下面", "再看", "然后看", "最后", "总结一下", "第二个", "第三个"]

def looksLikeBoundary (text : String) : Bool :=
  boundaryMarkers.any fun marker => marker.toList <:+: text.toList.filter (!runtime.tables.isSpace ·)

def buildWindow (index : Nat) (segments : List (TimedSegment Extra)) (startMs endMs : Int) : TemporalWindow Extra Facts where
  windowIndex := index
  startMs := startMs
  endMs := endMs
  segments := segments
  transcriptText := String.intercalate " " ((segments.map (·.stripped runtime.tables)).filter (· ≠ ""))
  facts := runtime.facts segments startMs endMs

/-- Whole segments from the end, until they last as long as the overlap. -/
def overlapOf (endMs : Int) : List (TimedSegment Extra) → List (TimedSegment Extra) → List (TimedSegment Extra)
  | [], overlap => overlap
  | segment :: rest, overlap =>
    if config.overlapMs ≤ endMs - segment.start then segment :: overlap else overlapOf endMs rest (segment :: overlap)

/-- The segments that the next window begins with. -/
def carried (s : WindowState Extra Facts) : List (TimedSegment Extra) :=
  if config.overlapMs ≤ 0 then [] else overlapOf config (s.currentEnd.getD 0) s.current.reverse []

def flush (s : WindowState Extra Facts) : WindowState Extra Facts :=
  if s.current = [] then s
  else
    { windows := s.windows ++
        [buildWindow runtime s.windows.length s.current (s.currentStart.getD 0) (s.currentEnd.getD 0)]
      current := carried config s
      currentStart := (carried config s).head?.map TimedSegment.start
      currentEnd := (carried config s).getLast?.map fun segment => segment.endMs.getD 0 }

def shouldSplit (s : WindowState Extra Facts) (segment : TimedSegment Extra) : Bool :=
  let projectedDuration := segment.stop - s.currentStart.getD segment.start
  s.current ≠ [] &&
    (config.maxMs ≤ projectedDuration ||
      (config.targetMs ≤ projectedDuration && looksLikeBoundary runtime (segment.stripped runtime.tables)) ||
      config.stretchedTarget.le (.finite (projectedDuration * Binary64.one)))

/-- The segment is added, whatever the current ones are. -/
def addSegment (s : WindowState Extra Facts) (segment : TimedSegment Extra) : WindowState Extra Facts :=
  { s with
    current := s.current ++ [segment]
    currentStart := some (s.currentStart.getD segment.start)
    currentEnd := some segment.stop }

def windowStep (s : WindowState Extra Facts) (segment : TimedSegment Extra) : WindowState Extra Facts :=
  let entered := { s with currentStart := some (s.currentStart.getD segment.start) }
  addSegment (if shouldSplit runtime config s segment then flush runtime config entered else entered) segment

/-- The segments that say something. -/
def spoken (segments : List (TimedSegment Extra)) : List (TimedSegment Extra) :=
  segments.filter fun segment => segment.stripped runtime.tables ≠ ""

def build (segments : List (TimedSegment Extra)) : List (TemporalWindow Extra Facts) :=
  (flush runtime config ((spoken runtime segments).foldl (windowStep runtime config) {})).windows

end Build

section Tiles
variable {Extra Facts : Type}

/-- The segments from one position up to another. -/
def piece (segments : List (TimedSegment Extra)) (range : Nat × Nat) : List (TimedSegment Extra) :=
  (segments.take range.2).drop range.1

/-- Windows of successive segments that leave none out. Each ends after the one before, so that its last segment is in
no earlier one. -/
structure Tiles (segments : List (TimedSegment Extra)) (windows : List (TemporalWindow Extra Facts))
    (ranges : List (Nat × Nat)) : Prop where
  pieces : windows.map (·.segments) = ranges.map (piece segments)
  nonempty : ∀ range ∈ ranges, range.1 < range.2 ∧ range.2 ≤ segments.length
  covered : ∀ i < segments.length, ∃ range ∈ ranges, range.1 ≤ i ∧ i < range.2
  ordered : ranges.Pairwise fun earlier later => earlier.1 ≤ later.1 ∧ earlier.2 < later.2

/-- A window lasts from its first segment to its last one. -/
structure Timed (window : TemporalWindow Extra Facts) : Prop where
  start : window.startMs = (window.segments.head?.map TimedSegment.start).getD 0
  stop : window.endMs = (window.segments.getLast?.map TimedSegment.stop).getD 0

/-- Where a builder is: the windows, and the current segments from a position on. -/
structure Cut (before : List (TimedSegment Extra)) (s : WindowState Extra Facts) (ranges : List (Nat × Nat))
    (first : Nat) : Prop where
  pieces : s.windows.map (·.segments) = ranges.map (piece before)
  timed : ∀ window ∈ s.windows, Timed window
  current : s.current = before.drop first
  start : s.currentStart = s.current.head?.map TimedSegment.start
  within : first ≤ before.length
  nonempty : ∀ range ∈ ranges, range.1 < range.2 ∧ range.2 ≤ before.length
  covered : ∀ i < first, ∃ range ∈ ranges, range.1 ≤ i ∧ i < range.2
  ordered : ranges.Pairwise fun earlier later => earlier.1 ≤ later.1 ∧ earlier.2 < later.2
  started : ∀ range ∈ ranges, range.1 ≤ first

/-- The last segment is in no window yet. -/
structure Grown (before : List (TimedSegment Extra)) (s : WindowState Extra Facts) (ranges : List (Nat × Nat))
    (first : Nat) : Prop extends Cut before s ranges first where
  fresh : ∀ range ∈ ranges, range.2 < before.length
  stop : s.currentEnd = s.current.getLast?.map TimedSegment.stop

variable {runtime : WindowRuntime Extra Facts} {config : WindowConfig} {before : List (TimedSegment Extra)}
  {s : WindowState Extra Facts} {segment : TimedSegment Extra} {ranges : List (Nat × Nat)} {first : Nat}

theorem piece_append {segments : List (TimedSegment Extra)} {range : Nat × Nat} (h : range.2 ≤ segments.length)
    (rest : List (TimedSegment Extra)) : piece (segments ++ rest) range = piece segments range := by
  rw [piece, List.take_append_of_le_length h, piece]

theorem overlapOf_suffix (config : WindowConfig) (endMs : Int) (reversed overlap : List (TimedSegment Extra)) :
    overlapOf config endMs reversed overlap <:+ reversed.reverse ++ overlap := by
  induction reversed generalizing overlap with
  | nil => exact List.suffix_rfl
  | cons segment rest ih =>
    rw [overlapOf, List.reverse_cons, List.append_assoc, List.singleton_append]
    split
    · exact List.suffix_append _ _
    · exact ih (segment :: overlap)

theorem carried_suffix (config : WindowConfig) (s : WindowState Extra Facts) : carried config s <:+ s.current := by
  rw [carried]
  split
  · exact List.nil_suffix
  · have hsuffix := overlapOf_suffix config (s.currentEnd.getD 0) s.current.reverse []
    rwa [List.reverse_reverse, List.append_nil] at hsuffix

theorem grown_initial : Grown [] ({} : WindowState Extra Facts) [] 0 where
  pieces := rfl
  timed := List.forall_mem_nil _
  current := rfl
  start := rfl
  within := le_rfl
  nonempty := List.forall_mem_nil _
  covered := fun i hi => absurd hi (Nat.not_lt_zero i)
  ordered := .nil
  started := List.forall_mem_nil _
  fresh := List.forall_mem_nil _
  stop := rfl

/-- What a flush adds to the ranges. -/
theorem Grown.ordered_snoc (h : Grown before s ranges first) : (ranges ++ [(first, before.length)]).Pairwise
    fun earlier later => earlier.1 ≤ later.1 ∧ earlier.2 < later.2 := by
  refine List.pairwise_append.mpr ⟨h.ordered, List.pairwise_singleton _ _, fun range hrange last hlast => ?_⟩
  rw [List.mem_singleton.mp hlast]
  exact ⟨h.started range hrange, h.fresh range hrange⟩

theorem Cut.lt_length (h : Cut before s ranges first) (hcurrent : s.current ≠ []) : first < before.length := by
  by_contra hle
  rw [h.current] at hcurrent
  exact hcurrent (List.drop_eq_nil_of_le (Nat.le_of_not_lt hle))

/-- A flush puts all current segments into a window, and takes some of the last ones over. -/
theorem Grown.flushed (h : Grown before s ranges first) (runtime : WindowRuntime Extra Facts) (config : WindowConfig)
    (hcurrent : s.current ≠ []) :
    ∃ next, Cut before (flush runtime config s) (ranges ++ [(first, before.length)]) next := by
  have hlt := h.lt_length hcurrent
  obtain ⟨passed, hpassed⟩ := carried_suffix config s
  have hlength : passed.length ≤ before.length - first := by
    rw [← List.length_drop, ← h.current, ← hpassed, List.length_append]
    exact Nat.le_add_right _ _
  have hnext : carried config s = before.drop (first + passed.length) := by
    rw [← List.drop_drop, ← h.current, ← hpassed, List.drop_left]
  have hpiece : s.current = piece before (first, before.length) := by
    rw [piece, List.take_length, h.current]
  refine ⟨first + passed.length, ?_⟩
  rw [flush, if_neg hcurrent]
  exact {
    pieces := by rw [List.map_append, List.map_append, h.pieces, List.map_singleton, List.map_singleton, ← hpiece]; rfl
    timed := by
      refine List.forall_mem_append.mpr ⟨h.timed, List.forall_mem_singleton.mpr ⟨?_, ?_⟩⟩
      · exact congrArg (Option.getD · 0) h.start
      · exact congrArg (Option.getD · 0) h.stop
    current := hnext
    start := rfl
    within := by omega
    nonempty := List.forall_mem_append.mpr ⟨h.nonempty, List.forall_mem_singleton.mpr ⟨hlt, le_rfl⟩⟩
    covered := fun i hi => by
      rcases Nat.lt_or_ge i first with hbefore | hsince
      · obtain ⟨range, hrange, hin⟩ := h.covered i hbefore
        exact ⟨range, List.mem_append_left _ hrange, hin⟩
      · exact ⟨_, List.mem_append_right _ (List.mem_singleton_self _), hsince, by omega⟩
    ordered := h.ordered_snoc
    started := List.forall_mem_append.mpr
      ⟨fun range hrange => (h.started range hrange).trans (Nat.le_add_right _ _),
        List.forall_mem_singleton.mpr (Nat.le_add_right _ _)⟩ }

/-- A segment that is added is fresh. -/
theorem Cut.add (h : Cut before s ranges first) (segment : TimedSegment Extra) :
    Grown (before ++ [segment]) (addSegment s segment) ranges first where
  pieces := by
    refine h.pieces.trans (List.map_congr_left fun range hrange => ?_)
    rw [piece_append (h.nonempty range hrange).2]
  timed := h.timed
  current := by rw [addSegment, List.drop_append_of_le_length h.within, h.current]
  start := by
    rw [addSegment]
    dsimp only
    rw [h.start]
    cases s.current <;> rfl
  within := by
    rw [List.length_append]
    exact h.within.trans (Nat.le_add_right _ _)
  nonempty := fun range hrange => ⟨(h.nonempty range hrange).1, by
    rw [List.length_append]
    exact (h.nonempty range hrange).2.trans (Nat.le_add_right _ _)⟩
  covered := h.covered
  ordered := h.ordered
  started := h.started
  fresh := fun range hrange => by
    rw [List.length_append, List.length_singleton]
    exact Nat.lt_succ_of_le (h.nonempty range hrange).2
  stop := by
    rw [addSegment]
    dsimp only
    rw [List.getLast?_concat, Option.map_some]

theorem current_ne_nil (h : shouldSplit runtime config s segment = true) : s.current ≠ [] :=
  of_decide_eq_true (Bool.and_eq_true_iff.mp h).1

/-- A step flushes or not, and adds the segment. -/
theorem Cut.windowStep_eq (h : Cut before s ranges first) : windowStep runtime config s segment =
    addSegment (if shouldSplit runtime config s segment then flush runtime config s else s) segment := by
  rw [windowStep]
  split
  · rename_i hsplit
    have hentered : some (s.currentStart.getD segment.start) = s.currentStart := by
      rw [h.start]
      cases hcurrent : s.current with
      | nil => exact absurd hcurrent (current_ne_nil hsplit)
      | cons x rest => rfl
    rw [hentered]
  · rfl

theorem Grown.step (h : Grown before s ranges first) (runtime : WindowRuntime Extra Facts) (config : WindowConfig)
    (segment : TimedSegment Extra) :
    ∃ ranges' first', Grown (before ++ [segment]) (windowStep runtime config s segment) ranges' first' := by
  rw [h.windowStep_eq]
  split
  · rename_i hsplit
    obtain ⟨next, hflush⟩ := h.flushed runtime config (current_ne_nil hsplit)
    exact ⟨_, _, hflush.add segment⟩
  · exact ⟨_, _, h.add segment⟩

theorem Grown.run (h : Grown before s ranges first) (runtime : WindowRuntime Extra Facts) (config : WindowConfig)
    (segments : List (TimedSegment Extra)) :
    ∃ ranges' first', Grown (before ++ segments) (segments.foldl (windowStep runtime config) s) ranges' first' := by
  induction segments generalizing before s ranges first with
  | nil => exact ⟨_, _, (List.append_nil before).symm ▸ h⟩
  | cons segment rest ih =>
    obtain ⟨_, _, hnext⟩ := h.step runtime config segment
    have hrest := ih hnext
    rwa [List.append_assoc, List.singleton_append] at hrest

/-- After the last flush every segment is in a window. -/
theorem Grown.tiles (h : Grown before s ranges first) : ∃ ranges', Tiles before (flush runtime config s).windows ranges' ∧
    ∀ window ∈ (flush runtime config s).windows, Timed window := by
  by_cases hcurrent : s.current = []
  · rw [flush, if_pos hcurrent]
    have hend : before.length ≤ first := List.drop_eq_nil_iff.mp (h.current ▸ hcurrent)
    exact ⟨ranges, ⟨h.pieces, h.nonempty, fun i hi => h.covered i (hi.trans_le hend), h.ordered⟩, h.timed⟩
  · obtain ⟨next, hflush⟩ := h.flushed runtime config hcurrent
    refine ⟨_, ⟨hflush.pieces, hflush.nonempty, fun i hi => ?_, hflush.ordered⟩, hflush.timed⟩
    rcases Nat.lt_or_ge i first with hbefore | hsince
    · obtain ⟨range, hrange, hin⟩ := h.covered i hbefore
      exact ⟨range, List.mem_append_left _ hrange, hin⟩
    · exact ⟨_, List.mem_append_right _ (List.mem_singleton_self _), hsince, hi⟩

theorem build_tiles (runtime : WindowRuntime Extra Facts) (config : WindowConfig) (segments : List (TimedSegment Extra)) :
    ∃ ranges, Tiles (spoken runtime segments) (build runtime config segments) ranges ∧
      ∀ window ∈ build runtime config segments, Timed window := by
  have hinitial : Grown [] ({} : WindowState Extra Facts) [] 0 := grown_initial
  obtain ⟨_, _, hrun⟩ := hinitial.run runtime config (spoken runtime segments)
  exact hrun.tiles

end Tiles

section Bounds
variable {Extra Facts : Type} {runtime : WindowRuntime Extra Facts} {config : WindowConfig}
  {before segments : List (TimedSegment Extra)} {s : WindowState Extra Facts} {segment : TimedSegment Extra}
  {ranges : List (Nat × Nat)} {first : Nat}

/-- Each segment begins and ends no earlier than the ones before. -/
def TimeOrdered (segments : List (TimedSegment Extra)) : Prop :=
  segments.Pairwise fun earlier later => earlier.start ≤ later.start ∧ earlier.stop ≤ later.stop

structure WindowsSound (config : WindowConfig) (segments : List (TimedSegment Extra))
    (windows : List (TemporalWindow Extra Facts)) : Prop where
  tiles : ∃ ranges, Tiles segments windows ranges
  starts : (windows.map (·.startMs)).Pairwise (· ≤ ·)
  bounded : ∀ window ∈ windows, 1 < window.segments.length → window.endMs - window.startMs ≤ config.maxMs

theorem head_piece {range : Nat × Nat} (h : range.1 < range.2 ∧ range.2 ≤ segments.length) :
    (piece segments range).head? = segments[range.1]? := by
  rw [piece, List.head?_drop, List.getElem?_take_of_lt h.1]

theorem Tiles.starts {windows : List (TemporalWindow Extra Facts)} (h : Tiles segments windows ranges)
    (htimed : ∀ window ∈ windows, Timed window) (hordered : TimeOrdered segments) :
    (windows.map (·.startMs)).Pairwise (· ≤ ·) := by
  have hstarts : windows.map (·.startMs) = ranges.map fun range => (segments[range.1]?.map TimedSegment.start).getD 0 := by
    have hheads : windows.map (·.startMs) = (windows.map (·.segments)).map fun items =>
        (items.head?.map TimedSegment.start).getD 0 := by
      rw [List.map_map]
      exact List.map_congr_left fun window hwindow => (htimed window hwindow).start
    rw [hheads, h.pieces, List.map_map]
    exact List.map_congr_left fun range hrange => by
      rw [Function.comp_apply, head_piece (h.nonempty range hrange)]
  rw [hstarts, List.pairwise_map]
  refine (List.Pairwise.and_mem.mp h.ordered).imp fun hpair => ?_
  obtain ⟨hearlier, hlater, hle, _⟩ := hpair
  have hlt := (h.nonempty _ hearlier).1.trans_le (h.nonempty _ hearlier).2
  have hlt' := (h.nonempty _ hlater).1.trans_le (h.nonempty _ hlater).2
  rw [List.getElem?_eq_getElem hlt, List.getElem?_eq_getElem hlt', Option.map_some, Option.map_some, Option.getD_some,
    Option.getD_some]
  rcases hle.lt_or_eq with hstrict | heq
  · exact (List.pairwise_iff_getElem.mp hordered _ _ hlt hlt' hstrict).1
  · simp only [heq, le_refl]

/-- A segment before which a flush is made fits with the segments that are taken over. -/
def CarryFits (runtime : WindowRuntime Extra Facts) (config : WindowConfig) (s : WindowState Extra Facts)
    (segment : TimedSegment Extra) : Prop :=
  shouldSplit runtime config s segment = true → ∀ first ∈ (carried config s).head?,
    segment.stop - first.start ≤ config.maxMs

/-- Nothing of more than one segment lasts too long. -/
structure Bounded (config : WindowConfig) (s : WindowState Extra Facts) : Prop where
  windows : ∀ window ∈ s.windows, 1 < window.segments.length → window.endMs - window.startMs ≤ config.maxMs
  current : 1 < s.current.length → s.currentEnd.getD 0 - s.currentStart.getD 0 ≤ config.maxMs

theorem lt_of_not_split (hcurrent : s.current ≠ []) (h : ¬ shouldSplit runtime config s segment = true) :
    segment.stop - s.currentStart.getD segment.start < config.maxMs := by
  by_contra hle
  refine h (Bool.and_eq_true_iff.mpr ⟨decide_eq_true hcurrent, ?_⟩)
  rw [decide_eq_true (Int.not_lt.mp hle), Bool.true_or, Bool.true_or]

theorem split_of_le (hcurrent : s.current ≠ [])
    (hle : config.maxMs ≤ segment.stop - s.currentStart.getD segment.start) :
    shouldSplit runtime config s segment = true := by
  by_contra h
  exact absurd hle (Int.not_le.mpr (lt_of_not_split hcurrent h))

theorem mem_flush {window : TemporalWindow Extra Facts} : window ∈ (flush runtime config s).windows ↔
    window ∈ s.windows ∨ s.current ≠ [] ∧ window =
      buildWindow runtime s.windows.length s.current (s.currentStart.getD 0) (s.currentEnd.getD 0) := by
  rw [flush]
  split
  · rename_i hcurrent
    simp [hcurrent]
  · rename_i hcurrent
    rw [List.mem_append, List.mem_singleton, and_iff_right hcurrent]

theorem Bounded.flushed (h : Bounded config s) : ∀ window ∈ (flush runtime config s).windows,
    1 < window.segments.length → window.endMs - window.startMs ≤ config.maxMs := by
  intro window hwindow hlength
  rcases mem_flush.mp hwindow with hold | hnew
  · exact h.windows window hold hlength
  · obtain ⟨_, rfl⟩ := hnew
    exact h.current hlength

theorem Bounded.step (h : Bounded config s) (hcut : Cut before s ranges first)
    (hfits : CarryFits runtime config s segment) : Bounded config (windowStep runtime config s segment) := by
  rw [hcut.windowStep_eq]
  split
  · rename_i hsplit
    refine ⟨h.flushed, fun hlength => ?_⟩
    rw [flush, if_neg (current_ne_nil hsplit)] at hlength ⊢
    cases hcarried : carried config s with
    | nil =>
      rw [addSegment, hcarried] at hlength
      exact absurd hlength (lt_irrefl 1)
    | cons x rest => exact hfits hsplit x (hcarried ▸ rfl)
  · rename_i hsplit
    refine ⟨h.windows, fun hlength => ?_⟩
    cases hcurrent : s.current with
    | nil =>
      rw [addSegment, hcurrent] at hlength
      exact absurd hlength (lt_irrefl 1)
    | cons x rest =>
      have hne : s.current ≠ [] := hcurrent ▸ List.cons_ne_nil x rest
      exact (lt_of_not_split hne hsplit).le

theorem Bounded.run (h : Bounded config s) (hgrown : Grown before s ranges first)
    (hfits : ∀ passed segment rest, segments = passed ++ segment :: rest →
      CarryFits runtime config (passed.foldl (windowStep runtime config) s) segment) :
    Bounded config (segments.foldl (windowStep runtime config) s) := by
  induction segments generalizing before s ranges first with
  | nil => exact h
  | cons segment rest ih =>
    obtain ⟨_, _, hnext⟩ := hgrown.step runtime config segment
    refine ih (h.step hgrown.toCut (hfits [] segment rest rfl)) hnext fun passed other others hrest => ?_
    exact hfits (segment :: passed) other others (congrArg (segment :: ·) hrest)

theorem mem_windows_run {window : TemporalWindow Extra Facts} (hgrown : Grown before s ranges first)
    (h : window ∈ s.windows) : window ∈ (segments.foldl (windowStep runtime config) s).windows := by
  induction segments generalizing before s ranges first with
  | nil => exact h
  | cons segment rest ih =>
    obtain ⟨_, _, hnext⟩ := hgrown.step runtime config segment
    refine ih hnext ?_
    rw [hgrown.windowStep_eq]
    split
    · exact mem_flush.mpr (.inl h)
    · exact h

/-- Current segments that last too long become a window, whatever comes next. -/
theorem too_long_emitted (runtime : WindowRuntime Extra Facts) (segments : List (TimedSegment Extra))
    (hgrown : Grown before s ranges first) (hcurrent : s.current ≠ [])
    (hlong : config.maxMs < s.currentEnd.getD 0 - s.currentStart.getD 0)
    (hnext : ∀ segment ∈ segments.head?, s.currentEnd.getD 0 ≤ segment.stop) :
    buildWindow runtime s.windows.length s.current (s.currentStart.getD 0) (s.currentEnd.getD 0) ∈
      (flush runtime config (segments.foldl (windowStep runtime config) s)).windows := by
  cases segments with
  | nil => exact mem_flush.mpr (.inr ⟨hcurrent, rfl⟩)
  | cons segment rest =>
    have hstart : s.currentStart.getD segment.start = s.currentStart.getD 0 := by
      rw [hgrown.start]
      cases hhead : s.current with
      | nil => exact absurd hhead hcurrent
      | cons x rest => rfl
    have hsplit : shouldSplit runtime config s segment = true := by
      refine split_of_le hcurrent ?_
      have hstop := hnext segment rfl
      rw [hstart]
      omega
    obtain ⟨_, _, hgrown'⟩ := hgrown.step runtime config segment
    rw [List.foldl_cons]
    refine mem_flush.mpr (.inl (mem_windows_run hgrown' ?_))
    rw [hgrown.windowStep_eq, if_pos hsplit]
    exact mem_flush.mpr (.inr ⟨hcurrent, rfl⟩)

theorem Cut.current_of_split (h : Cut before s ranges first) (hsplit : shouldSplit runtime config s segment = true)
    {x : TimedSegment Extra} (hx : (carried config s).head? = some x) :
    (windowStep runtime config s segment).current = carried config s ++ [segment] ∧
      (windowStep runtime config s segment).currentStart = some x.start ∧
      (windowStep runtime config s segment).currentEnd = some segment.stop := by
  rw [h.windowStep_eq, if_pos hsplit, flush, if_neg (current_ne_nil hsplit), hx]
  exact ⟨rfl, rfl, rfl⟩

/-- The windows of a time-ordered transcript are sound exactly if at each flush the segments that are taken over leave
room for the next one. -/
theorem windows_sound_iff (runtime : WindowRuntime Extra Facts) (config : WindowConfig)
    {transcript : List (TimedSegment Extra)} (hordered : TimeOrdered transcript) :
    WindowsSound config (spoken runtime transcript) (build runtime config transcript) ↔
      ∀ before segment after, spoken runtime transcript = before ++ segment :: after →
        CarryFits runtime config (before.foldl (windowStep runtime config) {}) segment := by
  have hspoken : TimeOrdered (spoken runtime transcript) := hordered.sublist List.filter_sublist
  have hinitial : Grown [] ({} : WindowState Extra Facts) [] 0 := grown_initial
  constructor
  · intro hsound before segment after hsegments hsplit x hx
    by_contra hlong
    obtain ⟨_, _, hgrown⟩ := hinitial.run runtime config before
    obtain ⟨_, _, hnext⟩ := hgrown.step runtime config segment
    have hcarried : (carried config (before.foldl (windowStep runtime config) ({} : WindowState Extra Facts))) ≠ [] := by
      intro hnil
      rw [hnil] at hx
      cases hx
    obtain ⟨hcurrent, hstart, hstop⟩ := hgrown.current_of_split hsplit hx
    have hspan : config.maxMs < segment.stop - x.start := Int.not_le.mp hlong
    have hemitted := too_long_emitted runtime after hnext
      (hcurrent ▸ List.append_ne_nil_of_right_ne_nil _ (List.cons_ne_nil _ _))
      (by rw [hstart, hstop, Option.getD_some, Option.getD_some]; exact hspan)
      (fun next hmem => by
        rw [hstop, Option.getD_some]
        rw [hsegments] at hspoken
        have hlater := (List.pairwise_cons.mp (List.pairwise_append.mp hspoken).2.1).1
        exact (hlater next (List.mem_of_mem_head? hmem)).2)
    have hbuild : build runtime config transcript = (flush runtime config (after.foldl (windowStep runtime config)
        (windowStep runtime config (before.foldl (windowStep runtime config) {}) segment))).windows := by
      rw [build, hsegments, List.foldl_append, List.foldl_cons]
    rw [← hbuild] at hemitted
    have hlength : 1 < (carried config (before.foldl (windowStep runtime config)
        ({} : WindowState Extra Facts)) ++ [segment]).length := by
      rw [List.length_append, List.length_singleton]
      exact Nat.succ_lt_succ (List.length_pos_iff.mpr hcarried)
    have hbounded := hsound.bounded _ hemitted (by rw [buildWindow, hcurrent]; exact hlength)
    rw [buildWindow, hstart, hstop, Option.getD_some, Option.getD_some] at hbounded
    exact absurd hspan (Int.not_lt.mpr hbounded)
  · intro hfits
    obtain ⟨ranges, htiles, htimed⟩ := build_tiles runtime config transcript
    have hbounded : Bounded config ({} : WindowState Extra Facts) :=
      ⟨List.forall_mem_nil _, fun hlength => absurd hlength (Nat.not_lt_zero 1)⟩
    exact ⟨⟨ranges, htiles⟩, htiles.starts htimed hspoken, (hbounded.run hinitial hfits).flushed⟩

end Bounds

section Cues

def plainWindows : WindowRuntime Unit Unit where
  tables :=
    { isDecimal := Char.isDigit
      isSpace := fun c => c = ' '
      upper := fun c => [c.toUpper]
      letters := Text.letter_ne_blank }
  facts := fun _ _ _ => ()

def cue (startSeconds endSeconds : Int) : TimedSegment Unit :=
  { startMs := some (startSeconds * 1000), endMs := some (endSeconds * 1000), text := some "cue", extra := () }

instance (segments : List (TimedSegment Unit)) : Decidable (TimeOrdered segments) :=
  inferInstanceAs (Decidable (segments.Pairwise _))

/-- With the default durations a segment of 140 seconds is taken over whole, so that the window of the next one lasts 200
seconds. -/
theorem carried_segment_too_long : ({} : WindowConfig).overlapMs < ({} : WindowConfig).targetMs ∧
    ({} : WindowConfig).targetMs < ({} : WindowConfig).maxMs ∧ TimeOrdered [cue 0 140, cue 140 200] ∧
    (∀ segment ∈ [cue 0 140, cue 140 200], segment.stop - segment.start < ({} : WindowConfig).maxMs) ∧
    ¬ WindowsSound {} (spoken plainWindows [cue 0 140, cue 140 200]) (build plainWindows {} [cue 0 140, cue 140 200]) := by
  refine ⟨by decide, by decide, by decide, by decide, fun hsound => ?_⟩
  have hwindows : ((build plainWindows {} [cue 0 140, cue 140 200]).any fun window =>
      decide (1 < window.segments.length) && decide (({} : WindowConfig).maxMs < window.endMs - window.startMs)) = true := by
    decide
  obtain ⟨window, hwindow, hlong⟩ := List.any_eq_true.mp hwindows
  obtain ⟨hlength, hspan⟩ := Bool.and_eq_true_iff.mp hlong
  exact absurd (of_decide_eq_true hspan) (Int.not_lt.mpr (hsound.bounded window hwindow (of_decide_eq_true hlength)))

/-- Two segments that last just as long as a window may. -/
theorem whole_carry_fits : TimeOrdered [cue 0 60, cue 60 150] ∧
    WindowsSound {} (spoken plainWindows [cue 0 60, cue 60 150]) (build plainWindows {} [cue 0 60, cue 60 150]) := by
  have hordered : TimeOrdered [cue 0 60, cue 60 150] := by decide
  refine ⟨hordered, (windows_sound_iff plainWindows {} hordered).mpr fun before segment after hsegments _ => ?_⟩
  have hspoken : spoken plainWindows [cue 0 60, cue 60 150] = [cue 0 60, cue 60 150] := by decide
  rw [hspoken] at hsegments
  cases before with
  | nil =>
    cases hsegments
    decide
  | cons x passed =>
    obtain ⟨rfl, hrest⟩ := List.cons_eq_cons.mp hsegments
    cases passed with
    | nil =>
      cases hrest
      decide
    | cons y passed =>
      obtain ⟨_, hnone⟩ := List.cons_eq_cons.mp hrest
      exact absurd hnone.symm (List.append_ne_nil_of_right_ne_nil _ (List.cons_ne_nil _ _))

end Cues
end StockContent.Segmentation
