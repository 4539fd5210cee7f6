import Mathlib.Logic.Function.Basic
import StockContent.Publication.PublicationRepository

/-! Clients that move publication runs at the same time. Each of them reads a run, moves
its own copy and saves the copy, and no save asks what became of the row meanwhile. -/
namespace StockContent.Publication
open Storage

/-- A client's copy of a run, and the run as this client last read or saved it. -/
structure ClientCopy where
  seen : ContentPublicationRun
  run : ContentPublicationRun

structure ClientDb (W : Type) where
  runs : RunTable
  copies : W → Option ClientCopy

inductive ClientCall (W : Type) where
  | read (client : W) (identity : PublicationIdentity)
  | transition (client : W) (call : TransitionCall)
  | save (client : W)

def terminal (state : PublicationState) : Bool := state == .published || state == .failedTerminal

section Clients
variable {W : Type} [DecidableEq W] (hashes : PublicationHashes)

def ClientDb.keep (db : ClientDb W) (client : W) (copy : Option ClientCopy) : ClientDb W :=
  { db with copies := Function.update db.copies client copy }

def readRun (db : ClientDb W) (client : W) (identity : PublicationIdentity) :
    Except PublicationError (ClientDb W × Unit) := do
  let run ← getByIdentity hashes identity db.runs
  return (db.keep client (run.map fun run => ⟨run, run⟩), ())

def moveCopy (db : ClientDb W) (client : W) (call : TransitionCall) : Except PublicationError (ClientDb W × Unit) :=
  match db.copies client with
  | none => .ok (db, ())
  | some copy => do
    let run ← copy.run.transition call.target call.manifestHash
    return (db.keep client (some ⟨copy.seen, run⟩), ())

def saveCopy (db : ClientDb W) (client : W) : Except PublicationError (ClientDb W × Unit) :=
  match db.copies client with
  | none => .ok (db, ())
  | some copy => do
    let runs ← saveInSession hashes copy.run db.runs
    return ({ db with runs }.keep client (some ⟨copy.run, copy.run⟩), ())

def execClient (db : ClientDb W) : ClientCall W → ClientDb W × Except PublicationError Unit
  | .read client identity => settle db (readRun hashes db client identity)
  | .transition client call => settle db (moveCopy db client call)
  | .save client => settle db (saveCopy hashes db client)

def clientStore : Machine (ClientDb W) (ClientCall W) (Except PublicationError Unit) := ⟨execClient hashes⟩

/-- A row that reached a terminal state stays in it. -/
def TerminalAbsorbing (db : ClientDb W) (calls : List (ClientCall W)) : Prop :=
  ∀ done later rest, calls = done ++ (later ++ rest) → ∀ id row, ((clientStore hashes).run db done).runs.get id = some row →
    terminal row.state = true → ∃ row', ((clientStore hashes).run db (done ++ later)).runs.get id = some row' ∧
      row'.state = row.state

/-- Who saves over a terminal row has read or saved it in that state. -/
def SavesSeen (db : ClientDb W) (call : ClientCall W) : Prop :=
  ∀ client copy row, call = .save client → db.copies client = some copy →
    db.runs.get (copy.run.publicationRunId hashes) = some row → terminal row.state = true → copy.seen.state = row.state

omit [DecidableEq W] in
theorem savesSeen_save {db : ClientDb W} {client : W} : SavesSeen hashes db (.save client) ↔
    (db.copies client).all (fun copy => (db.runs.get (copy.run.publicationRunId hashes)).all fun row =>
      !terminal row.state || copy.seen.state == row.state) = true := by
  simp only [Option.all_eq_true, Bool.or_eq_true, Bool.not_eq_true', beq_iff_eq, ← Bool.not_eq_true, ← imp_iff_not_or]
  constructor
  · exact fun h copy hcopy row hrow hterminal => h client copy row rfl hcopy hrow hterminal
  · rintro h _ copy row ⟨⟩ hcopy hrow hterminal
    exact h copy hcopy row hrow hterminal

instance (db : ClientDb W) (call : ClientCall W) : Decidable (SavesSeen hashes db call) :=
  match call with
  | .read .. => isTrue fun _ _ _ h => by cases h
  | .transition .. => isTrue fun _ _ _ h => by cases h
  | .save _ => decidable_of_iff _ (savesSeen_save hashes).symm

/-- A copy comes from the run its client saw, along the edges of the state machine. -/
def CopiesMoved (db : ClientDb W) : Prop :=
  ∀ client copy, db.copies client = some copy → terminal copy.seen.state = true → copy.run.state = copy.seen.state

variable {hashes} {db : ClientDb W} {call : ClientCall W}

theorem CopiesMoved.keep (h : CopiesMoved db) (client : W) {copy : Option ClientCopy}
    (hcopy : ∀ c, copy = some c → terminal c.seen.state = true → c.run.state = c.seen.state) :
    CopiesMoved (db.keep client copy) := by
  intro other c hc
  change Function.update db.copies client copy other = some c at hc
  by_cases hother : other = client
  · subst hother
    rw [Function.update_self] at hc
    exact hcopy c hc
  · rw [Function.update_of_ne hother] at hc
    exact h other c hc

/-- No edge leaves a terminal state. -/
theorem transition_terminal {run run' : ContentPublicationRun} {call : TransitionCall}
    (h : run.transition call.target call.manifestHash = .ok run') (hterminal : terminal run.state = true) :
    run'.state = run.state := by
  obtain ⟨hallows, _, rfl⟩ := ContentPublicationRun.transition_ok.mp h
  change call.target = run.state
  rw [ContentPublicationRun.allows, Bool.or_eq_true, decide_eq_true_iff, List.contains_iff_mem] at hallows
  refine hallows.resolve_right fun hedge => ?_
  revert hedge hterminal
  cases run.state <;> simp [terminal, transitions]

theorem copiesMoved_step (h : CopiesMoved db) (call : ClientCall W) : CopiesMoved ((clientStore hashes).step db call) := by
  cases call with
  | read client identity =>
    change CopiesMoved (settle db (readRun hashes db client identity)).1
    cases hread : readRun hashes db client identity with
    | error e => exact h
    | ok result =>
      obtain ⟨run, _, hresult⟩ := bind_eq_ok.mp hread
      cases hresult
      refine h.keep client fun c hc _ => ?_
      obtain ⟨_, _, rfl⟩ := Option.map_eq_some_iff.mp hc
      rfl
  | transition client call =>
    change CopiesMoved (settle db (moveCopy db client call)).1
    cases hmove : moveCopy db client call with
    | error e => exact h
    | ok result =>
      rw [moveCopy] at hmove
      cases hcopy : db.copies client with
      | none =>
        rw [hcopy] at hmove
        cases hmove
        exact h
      | some copy =>
        rw [hcopy] at hmove
        obtain ⟨run, hrun, hresult⟩ := bind_eq_ok.mp hmove
        cases hresult
        refine h.keep client fun c hc hterminal => ?_
        cases hc
        have hseen := h client copy hcopy hterminal
        rw [transition_terminal hrun (hseen ▸ hterminal), hseen]
  | save client =>
    change CopiesMoved (settle db (saveCopy hashes db client)).1
    cases hsave : saveCopy hashes db client with
    | error e => exact h
    | ok result =>
      rw [saveCopy] at hsave
      cases hcopy : db.copies client with
      | none =>
        rw [hcopy] at hsave
        cases hsave
        exact h
      | some copy =>
        rw [hcopy] at hsave
        obtain ⟨runs, _, hresult⟩ := bind_eq_ok.mp hsave
        cases hresult
        have hruns : CopiesMoved { db with runs } := h
        refine hruns.keep client fun c hc _ => ?_
        cases hc
        rfl

/-- Only saves write, and what a save writes over a terminal row is a copy that was in
that state when its client saw it. -/
theorem get_clientStep (h : CopiesMoved db) (hcall : SavesSeen hashes db call) {id : String}
    {row : ContentPublicationRunRow}
    (hget : db.runs.get id = some row) (hterminal : terminal row.state = true) :
    ∃ row', ((clientStore hashes).step db call).runs.get id = some row' ∧ row'.state = row.state := by
  cases call with
  | read client identity =>
    refine ⟨row, ?_, rfl⟩
    change (settle db (readRun hashes db client identity)).1.runs.get id = some row
    cases hread : readRun hashes db client identity with
    | error e => exact hget
    | ok result =>
      obtain ⟨run, _, hresult⟩ := bind_eq_ok.mp hread
      cases hresult
      exact hget
  | transition client call =>
    refine ⟨row, ?_, rfl⟩
    change (settle db (moveCopy db client call)).1.runs.get id = some row
    rw [moveCopy]
    cases hcopy : db.copies client with
    | none => exact hget
    | some copy =>
      dsimp only
      cases copy.run.transition call.target call.manifestHash <;> exact hget
  | save client =>
    change ∃ row', (settle db (saveCopy hashes db client)).1.runs.get id = some row' ∧ row'.state = row.state
    rw [saveCopy]
    cases hcopy : db.copies client with
    | none => exact ⟨row, hget, rfl⟩
    | some copy =>
      dsimp only
      cases hsave : saveInSession hashes copy.run db.runs with
      | error e => exact ⟨row, hget, rfl⟩
      | ok runs =>
        change ∃ row', runs.get id = some row' ∧ row'.state = row.state
        rw [get_saveInSession hsave id]
        by_cases hid : copy.run.publicationRunId hashes = id
        · rw [if_pos hid]
          refine ⟨_, rfl, ?_⟩
          have hseen := hcall client copy row rfl hcopy (hid ▸ hget) hterminal
          exact (h client copy hcopy (hseen ▸ hterminal)).trans hseen
        · rw [if_neg hid]
          exact ⟨row, hget, rfl⟩

/-- Whatever clients read, move and save in whatever order, a terminal row stays as it is
when every save over one is made by a client that saw it in that state. -/
theorem terminal_rows_absorbing (runs : RunTable) {calls : List (ClientCall W)}
    (hcalls : (clientStore hashes).Along (SavesSeen hashes) ⟨runs, fun _ => none⟩ calls) :
    TerminalAbsorbing hashes ⟨runs, fun _ => none⟩ calls := by
  rintro done later rest rfl id row hget hterminal
  have hmoved : CopiesMoved ((clientStore hashes).run ⟨runs, fun _ => none⟩ done) :=
    (clientStore hashes).run_invariant (I := CopiesMoved) (fun db call h => copiesMoved_step h call)
      (fun _ _ hc => by cases hc) done
  have hlater := ((clientStore hashes).along_append.mp ((clientStore hashes).along_append.mp hcalls).2).1
  rw [Machine.run_append]
  clear hcalls
  -- The state of the row is carried along the later calls, with the copies that reach it.
  have hkept := (clientStore hashes).run_of_along
    (I := fun db => CopiesMoved db ∧ ∃ row', db.runs.get id = some row' ∧ row'.state = row.state)
    (fun db call h hcall => ⟨copiesMoved_step h.1 call, ?_⟩) ⟨hmoved, row, hget, rfl⟩ hlater
  · exact hkept.2
  · obtain ⟨hdb, row', hrow', hstate⟩ := h
    obtain ⟨next, hnext, hsame⟩ := get_clientStep hdb hcall hrow' (hstate ▸ hterminal)
    exact ⟨next, hnext, hsame.trans hstate⟩

end Clients

/-- The digests of snapshot `snap-1` with query `q` under policy `p`. -/
def snapshotHashes : PublicationHashes := ⟨fun _ => "940eab6e382db0d048ec1ad2e53b6228", id, fun _ => "h"⟩

def publishingRow : ContentPublicationRunRow :=
  ⟨"pub_940eab6e382db0d048ec1ad2e53b6228", ⟨"snap-1", "q", "p"⟩, .publishing, some "h", 5⟩

def publishingRows : RunTable := ⟨[publishingRow], List.nodup_singleton _⟩

/-- Two clients read the same run; the second moves its copy before the first one saves. -/
def overtaken : List (ClientCall Nat) :=
  [.read 1 ⟨"snap-1", "q", "p"⟩, .read 2 ⟨"snap-1", "q", "p"⟩, .transition 1 ⟨.published, none⟩,
    .transition 2 ⟨.failedRetryable, none⟩, .save 1, .save 2]

/-- The published run fails again. -/
theorem published_run_overwritten : ¬ TerminalAbsorbing snapshotHashes ⟨publishingRows, fun _ => none⟩ overtaken := by
  intro h
  obtain ⟨row', hget, hstate⟩ := h (overtaken.take 5) [.save 2] [] rfl publishingRow.publicationRunId
    { publishingRow with state := .published, version := 6 } (by decide) rfl
  have hfailed : ((clientStore snapshotHashes).run ⟨publishingRows, fun _ => none⟩ overtaken).runs.get
      publishingRow.publicationRunId = some { publishingRow with state := .failedRetryable, version := 6 } := by
    decide
  rw [show overtaken.take 5 ++ [.save 2] = overtaken from rfl, hfailed] at hget
  cases hget
  cases hstate

/-- Reading again before the move keeps the published run. -/
theorem reread_keeps_published : TerminalAbsorbing snapshotHashes ⟨publishingRows, fun _ => none⟩
    ([.read 1 ⟨"snap-1", "q", "p"⟩, .transition 1 ⟨.published, none⟩, .save 1, .read 2 ⟨"snap-1", "q", "p"⟩, .save 2] :
      List (ClientCall Nat)) := by
  exact terminal_rows_absorbing publishingRows (by decide)

end StockContent.Publication
