import StockContent.Signals.SignalOutbox

/-! Runs of the outbox: any publishers, any order of calls, any clock readings. -/
namespace StockContent.Signals
open Storage

inductive OutboxCall where
  | enqueue (payload : List (String × Json)) (now : Time)
  | claimDue (locked : List String) (workerId : String) (limit : Nat) (leaseSeconds : Int) (now : Time)
  | mark (outboxId workerId : String) (mark : OutboxMark) (now : Time)
  deriving DecidableEq

inductive OutboxReply where
  | row (row : SignalOutboxRow)
  | claimed (rows : List SignalOutboxRow)
  deriving DecidableEq

def execOutbox (texts : OutboxTexts) (outbox : OutboxTable) :
    OutboxCall → OutboxTable × Except OutboxError OutboxReply
  | .enqueue payload now => (settle outbox (enqueue texts payload now outbox)).map id (Except.map .row)
  | .claimDue locked workerId limit leaseSeconds now =>
    (claimDue locked workerId limit leaseSeconds now outbox).map id (.ok ∘ .claimed)
  | .mark outboxId workerId mark now =>
    (settle outbox (applyMark outboxId workerId mark now outbox)).map id (Except.map .row)

def signalOutbox (texts : OutboxTexts) : Machine OutboxTable OutboxCall (Except OutboxError OutboxReply) :=
  ⟨execOutbox texts⟩

/-- The holder of an unexpired lease. -/
def holdsLease (workerId : String) (now : Time) (row : SignalOutboxRow) : Bool :=
  row.status == .publishing && row.leaseOwner == some workerId && row.leaseExpiresAt.all (now < ·)

/-- Everything a call may do to a stored row. -/
inductive RowStep (row : SignalOutboxRow) : SignalOutboxRow → Prop
  | stay : RowStep row row
  | claim (workerId : String) (leaseSeconds : Int) {now : Time} (h : claimable now row = true) :
      RowStep row (publishing workerId leaseSeconds now row)
  | mark {workerId : String} {now : Time} (m : OutboxMark) (h : holdsLease workerId now row = true) :
      RowStep row (m.apply now row)

section Runs
variable {texts : OutboxTexts} {outbox : OutboxTable}

def Enqueued (texts : OutboxTexts) (row : SignalOutboxRow) : Prop :=
  ∃ payload now, signalIdOf texts payload ≠ "" ∧ row = enqueued texts payload now

theorem holdsLease_iff {workerId : String} {now : Time} {row : SignalOutboxRow} :
    holdsLease workerId now row = true ↔
      row.status = .publishing ∧ row.leaseOwner = some workerId ∧ ∀ e, row.leaseExpiresAt = some e → now < e := by
  simp [holdsLease, Option.all_eq_true, and_assoc]

theorem assertOwner_ok {outboxId workerId : String} {now : Time} {row : SignalOutboxRow} :
    assertOwner outboxId workerId now outbox = .ok row ↔
      outbox.get outboxId = some row ∧ holdsLease workerId now row = true := by
  rw [assertOwner]
  cases hg : outbox.get outboxId with
  | none => simp
  | some found =>
    dsimp only
    by_cases hs : found.status ≠ .publishing ∨ found.leaseOwner ≠ some workerId
    · rw [if_pos hs]
      refine iff_of_false (by simp) fun h => ?_
      obtain ⟨rfl, hl⟩ := h.imp_left Option.some.inj
      obtain ⟨hp, ho, _⟩ := holdsLease_iff.mp hl
      rcases hs with hs | hs
      · exact hs hp
      · exact hs ho
    · rw [if_neg hs]
      push Not at hs
      have hheld : holdsLease workerId now found = true ↔ ¬ found.leaseExpiresAt.any (· ≤ now) = true := by
        rw [holdsLease_iff]
        simp [hs, Option.any_eq_true]
      by_cases hx : found.leaseExpiresAt.any (· ≤ now) = true
      · rw [if_pos hx]
        refine iff_of_false (by simp) fun h => ?_
        obtain ⟨rfl, hl⟩ := h.imp_left Option.some.inj
        exact hheld.mp hl hx
      · rw [if_neg hx, Except.ok.injEq, Option.some.injEq]
        exact ⟨fun he => ⟨he, he ▸ hheld.mpr hx⟩, fun h => h.1⟩

/-- A mark is accepted exactly from the holder of an unexpired lease. -/
theorem applyMark_ok {outboxId workerId : String} {mark : OutboxMark} {now : Time} {outbox' : OutboxTable}
    {row' : SignalOutboxRow} :
    applyMark outboxId workerId mark now outbox = .ok (outbox', row') ↔
      ∃ row, outbox.get outboxId = some row ∧ holdsLease workerId now row = true ∧ row' = mark.apply now row ∧
        outbox' = outbox.modify outboxId (mark.apply now) (fun row => mark.apply_outboxId now row) := by
  simp only [applyMark, bind_eq_ok, assertOwner_ok]
  constructor
  · rintro ⟨row, ⟨hg, hl⟩, h⟩
    cases h
    exact ⟨row, hg, hl, rfl, rfl⟩
  · rintro ⟨row, hg, hl, rfl, rfl⟩
    exact ⟨row, ⟨hg, hl⟩, rfl⟩

theorem insertIgnore_ok {row : SignalOutboxRow} {outbox' : OutboxTable}
    (h : insertIgnore row outbox = .ok outbox') :
    (outbox' = outbox ∧ ∃ r ∈ outbox.rows, r.signalId = row.signalId) ∨ outbox.insert row = some outbox' := by
  unfold insertIgnore at h
  split at h
  · rename_i hany
    cases h
    exact .inl ⟨rfl, by simpa using hany⟩
  · split at h
    · cases h
      exact .inr ‹_›
    · cases h

/-- An accepted payload was stored before, or is stored now under a primary key that was free. -/
theorem enqueue_ok {payload : List (String × Json)} {now : Time} {outbox' : OutboxTable} {row : SignalOutboxRow}
    (h : enqueue texts payload now outbox = .ok (outbox', row)) :
    signalIdOf texts payload ≠ "" ∧ row ∈ outbox'.rows ∧ row.signalId = signalIdOf texts payload ∧
      (Json.obj row.payload).same (.obj payload) = true ∧
      (outbox' = outbox ∨ outbox.insert (enqueued texts payload now) = some outbox') := by
  unfold enqueue at h
  dsimp only at h
  split at h
  · cases h
  · rename_i hid
    obtain ⟨u, hu, h⟩ := bind_eq_ok.mp h
    split at h
    · cases h
    · rename_i found hf
      split at h
      · cases h
      · rename_i hsame
        cases h
        exact ⟨hid, List.mem_of_find?_eq_some hf, by simpa using List.find?_some hf, by simpa using hsame,
          (insertIgnore_ok hu).imp And.left id⟩

/-- Rows are stored under the identity of their signal, owner and expiry mark the rows
being published, and the attempts of a row that can still be retried are within the schedule. -/
structure OutboxOk (texts : OutboxTexts) (row : SignalOutboxRow) : Prop where
  identity : row.outboxId = outboxIdOf texts row.signalId
  owner : row.leaseOwner.isSome = true ↔ row.status = .publishing
  expiry : row.leaseExpiresAt.isSome = row.leaseOwner.isSome
  attempts : row.attempts ≤ outboxRetrySeconds.length ∨
    row.status = .deadLetter ∧ row.attempts = outboxRetrySeconds.length + 1

theorem Enqueued.ok {row : SignalOutboxRow} (h : Enqueued texts row) : OutboxOk texts row := by
  obtain ⟨payload, now, _, rfl⟩ := h
  exact ⟨rfl, by simp [enqueued], rfl, .inl (Nat.zero_le _)⟩

def terminal (row : SignalOutboxRow) : Prop := row.status = .published ∨ row.status = .deadLetter

theorem terminal_not_claimable {row : SignalOutboxRow} (h : terminal row) (now : Time) :
    claimable now row = false := by
  rcases h with h | h <;> simp [claimable, h]

theorem terminal_not_held {row : SignalOutboxRow} (h : terminal row) (workerId : String) (now : Time) :
    holdsLease workerId now row = false := by
  rcases h with h | h <;> simp [holdsLease, h]

theorem RowStep.of_terminal {row row' : SignalOutboxRow} (ht : terminal row) (h : RowStep row row') : row' = row := by
  cases h with
  | stay => rfl
  | claim _ _ hc => rw [terminal_not_claimable ht] at hc; cases hc
  | mark _ hl => rw [terminal_not_held ht] at hl; cases hl

theorem RowStep.same {row row' : SignalOutboxRow} (h : RowStep row row') :
    row'.outboxId = row.outboxId ∧ row'.signalId = row.signalId ∧ row'.payload = row.payload := by
  cases h with
  | stay => exact ⟨rfl, rfl, rfl⟩
  | claim => exact ⟨rfl, rfl, rfl⟩
  | mark m _ =>
    cases m with
    | published => exact ⟨rfl, rfl, rfl⟩
    | retry error =>
      simp only [OutboxMark.apply]
      split <;> exact ⟨rfl, rfl, rfl⟩

theorem RowStep.ok {row row' : SignalOutboxRow} (hok : OutboxOk texts row) (h : RowStep row row') :
    OutboxOk texts row' := by
  obtain ⟨hid, hsig, _⟩ := h.same
  have hidentity : row'.outboxId = outboxIdOf texts row'.signalId := by rw [hid, hsig, hok.identity]
  cases h with
  | stay => exact hok
  | claim workerId leaseSeconds hc =>
    refine ⟨hidentity, by simp [publishing], rfl, .inl ?_⟩
    rcases hok.attempts with ha | ⟨hs, _⟩
    · exact ha
    · rw [terminal_not_claimable (.inr hs)] at hc
      cases hc
  | mark m hl =>
    have hlive : row.attempts ≤ outboxRetrySeconds.length := by
      rcases hok.attempts with ha | ⟨hs, _⟩
      · exact ha
      · rw [(holdsLease_iff.mp hl).1] at hs
        cases hs
    cases m with
    | published => exact ⟨hidentity, by simp [OutboxMark.apply], rfl, .inl hlive⟩
    | retry error =>
      revert hidentity
      simp only [OutboxMark.apply]
      split
      · intro hidentity
        exact ⟨hidentity, by simp, rfl, .inr ⟨rfl, by dsimp only; omega⟩⟩
      · intro hidentity
        exact ⟨hidentity, by simp, rfl, .inl (by dsimp only; omega)⟩

theorem claimed_ids (workerId : String) (leaseSeconds : Int) (now : Time) (rows : List SignalOutboxRow) :
    (rows.map (publishing workerId leaseSeconds now)).map (·.outboxId) = rows.map (·.outboxId) := by
  rw [List.map_map]
  rfl

/-- A row is claimed only when it is claimable and nobody else holds its lock. -/
theorem mem_dueRows {locked : List String} {limit : Nat} {now : Time} {row : SignalOutboxRow}
    (hm : row ∈ outbox.rows) (h : row.outboxId ∈ (dueRows locked limit now outbox).map (·.outboxId)) :
    claimable now row = true :=
  (Bool.and_eq_true_iff.mp (Table.select_of_key hm h).2).1

theorem claimDue_get (locked : List String) (workerId : String) (limit : Nat) (leaseSeconds : Int) (now : Time)
    (k : String) :
    (claimDue locked workerId limit leaseSeconds now outbox).1.get k = (outbox.get k).map fun row =>
      if k ∈ (dueRows locked limit now outbox).map (·.outboxId) then publishing workerId leaseSeconds now row
      else row :=
  Table.get_modifyEach outbox _ _ (publishing_outboxId workerId leaseSeconds now) k

variable (texts) in
theorem signalOutbox_evolves (outbox : OutboxTable) (call : OutboxCall) :
    Table.Evolves (Enqueued texts) RowStep outbox ((signalOutbox texts).step outbox call) := by
  have hrefl : Table.Evolves (Enqueued texts) RowStep outbox outbox := .refl (fun _ => .stay) outbox
  cases call with
  | enqueue payload now =>
    change Table.Evolves _ _ _ (settle outbox (enqueue texts payload now outbox)).1
    cases h : enqueue texts payload now outbox with
    | error e => exact hrefl
    | ok p =>
      rcases enqueue_ok h with ⟨hid, _, _, _, he | hi⟩
      · rw [settle_ok, he]
        exact hrefl
      · exact .insert hi (fun _ => .stay) ⟨payload, now, hid, rfl⟩
  | claimDue locked workerId limit leaseSeconds now =>
    refine .modifyEach outbox (publishing_outboxId workerId leaseSeconds now) (fun _ => .stay) fun row hm hk => ?_
    exact .claim workerId leaseSeconds (mem_dueRows hm hk)
  | mark outboxId workerId mark now =>
    change Table.Evolves _ _ _ (settle outbox (applyMark outboxId workerId mark now outbox)).1
    cases h : applyMark outboxId workerId mark now outbox with
    | error e => exact hrefl
    | ok p =>
      obtain ⟨row, hg, hl, _, he⟩ := applyMark_ok.mp h
      rw [settle_ok, he]
      refine .modify outbox (fun row => mark.apply_outboxId now row) (fun _ => .stay) fun r hr => ?_
      rw [hg] at hr
      cases hr
      exact .mark mark hl

theorem signalOutbox_ok (calls : List OutboxCall) :
    ((signalOutbox texts).run .empty calls).All (OutboxOk texts) :=
  (signalOutbox texts).run_invariant (I := Table.All (OutboxOk texts))
    (fun outbox call hok => (signalOutbox_evolves texts outbox call).all (fun _ => Enqueued.ok)
      (fun _ _ h hs => hs.ok h) hok)
    (fun _ _ h => by cases h) calls

variable (texts) in
/-- A stored row keeps its signal and payload, and a finished row keeps everything. -/
theorem run_row {id : String} {row : SignalOutboxRow} (hg : outbox.get id = some row) (more : List OutboxCall) :
    ∃ row', ((signalOutbox texts).run outbox more).get id = some row' ∧ row'.signalId = row.signalId ∧
      row'.payload = row.payload ∧ (terminal row → row' = row) := by
  refine (signalOutbox texts).run_invariant (I := fun t => ∃ row', t.get id = some row' ∧
    row'.signalId = row.signalId ∧ row'.payload = row.payload ∧ (terminal row → row' = row)) ?_
    ⟨row, hg, rfl, rfl, fun _ => rfl⟩ more
  rintro t call ⟨row', hg', hsig, hpay, hterm⟩
  obtain ⟨row'', hg'', hstep⟩ := (signalOutbox_evolves texts t call).old id row' hg'
  obtain ⟨_, hsig', hpay'⟩ := hstep.same
  refine ⟨row'', hg'', hsig'.trans hsig, hpay'.trans hpay, fun ht => ?_⟩
  have he := hterm ht
  subst he
  exact hstep.of_terminal ht

/-- The lease that a call gave out on a row. -/
def claimOf (outboxId : String) : OutboxCall × Except OutboxError OutboxReply → Option (String × Time)
  | (.claimDue _ workerId _ leaseSeconds now, .ok (.claimed rows)) =>
    if outboxId ∈ rows.map (·.outboxId) then some (workerId, now + seconds leaseSeconds) else none
  | _ => none

/-- The lease of the latest claim that returned the row. -/
def latestClaim (outboxId : String) (history : List (OutboxCall × Except OutboxError OutboxReply)) :
    Option (String × Time) :=
  (history.filterMap (claimOf outboxId)).getLast?

/-- Whoever owns a row owns it by the latest claim that returned it. -/
def ClaimHistory (outbox : OutboxTable) (history : List (OutboxCall × Except OutboxError OutboxReply)) : Prop :=
  ∀ id row, outbox.get id = some row → ∀ workerId, row.leaseOwner = some workerId →
    ∃ e, row.leaseExpiresAt = some e ∧ latestClaim id history = some (workerId, e)

/-- A call that gives out no lease on a row leaves its owner alone or takes it away. -/
private theorem ClaimHistory.quiet {history : List (OutboxCall × Except OutboxError OutboxReply)}
    {call : OutboxCall × Except OutboxError OutboxReply} {outbox' : OutboxTable} (h : ClaimHistory outbox history)
    (hq : ∀ id, claimOf id call = none)
    (hev : Table.Evolves (·.leaseOwner = none) (fun row row' => row'.leaseOwner = none ∨ row' = row)
      outbox outbox') :
    ClaimHistory outbox' (history ++ [call]) := by
  intro id row' hg' workerId ho
  have he : latestClaim id (history ++ [call]) = latestClaim id history := by
    simp [latestClaim, hq id]
  rw [he]
  cases hg : outbox.get id with
  | none => rw [hev.new id row' hg hg'] at ho; cases ho
  | some row =>
    rcases hev.old id row hg with ⟨_, hs, hnone | rfl⟩
    · rw [hg'] at hs
      cases hs
      rw [hnone] at ho
      cases ho
    · rw [hg'] at hs
      cases hs
      exact h id row' hg workerId ho

theorem claimHistory_step (outbox : OutboxTable) (history : List (OutboxCall × Except OutboxError OutboxReply))
    (call : OutboxCall) (h : ClaimHistory outbox history) :
    ClaimHistory ((signalOutbox texts).step outbox call)
      (history ++ [(call, (signalOutbox texts).outcome outbox call)]) := by
  have hrefl : Table.Evolves (·.leaseOwner = none)
      (fun row row' : SignalOutboxRow => row'.leaseOwner = none ∨ row' = row) outbox outbox :=
    .refl (fun _ => .inr rfl) outbox
  cases call with
  | enqueue payload now =>
    refine h.quiet (fun _ => rfl) ?_
    change Table.Evolves _ _ _ (settle outbox (enqueue texts payload now outbox)).1
    cases hx : enqueue texts payload now outbox with
    | error e => exact hrefl
    | ok p =>
      rcases enqueue_ok hx with ⟨_, _, _, _, he | hi⟩
      · rw [settle_ok, he]
        exact hrefl
      · exact .insert hi (fun _ => .inr rfl) rfl
  | claimDue locked workerId limit leaseSeconds now =>
    intro id row' hg' w ho
    change (claimDue locked workerId limit leaseSeconds now outbox).1.get id = some row' at hg'
    rw [claimDue_get] at hg'
    obtain ⟨row, hg, rfl⟩ := Option.map_eq_some_iff.mp hg'
    have hids := claimed_ids workerId leaseSeconds now (dueRows locked limit now outbox)
    have hclaim : claimOf id (.claimDue locked workerId limit leaseSeconds now,
        (signalOutbox texts).outcome outbox (.claimDue locked workerId limit leaseSeconds now)) =
        if id ∈ (dueRows locked limit now outbox).map (·.outboxId) then
          some (workerId, now + seconds leaseSeconds) else none := by
      rw [← hids]
      rfl
    by_cases hd : id ∈ (dueRows locked limit now outbox).map (·.outboxId)
    · rw [if_pos hd] at ho hclaim ⊢
      cases ho
      exact ⟨_, rfl, by simp [latestClaim, hclaim]⟩
    · rw [if_neg hd] at ho hclaim ⊢
      obtain ⟨e, he, hlast⟩ := h id row hg w ho
      exact ⟨e, he, by simpa [latestClaim, hclaim] using hlast⟩
  | mark outboxId workerId mark now =>
    refine h.quiet (fun _ => rfl) ?_
    change Table.Evolves _ _ _ (settle outbox (applyMark outboxId workerId mark now outbox)).1
    cases hx : applyMark outboxId workerId mark now outbox with
    | error e => exact hrefl
    | ok p =>
      obtain ⟨_, _, _, _, he⟩ := applyMark_ok.mp hx
      rw [settle_ok, he]
      refine .modify outbox (fun row => mark.apply_outboxId now row) (fun _ => .inr rfl) fun r _ => .inl ?_
      cases mark with
      | published => rfl
      | retry error =>
        simp only [OutboxMark.apply]
        split <;> rfl

theorem signalOutbox_claimHistory (calls : List OutboxCall) :
    ClaimHistory ((signalOutbox texts).run .empty calls) ((signalOutbox texts).history .empty calls) :=
  (signalOutbox texts).history_invariant claimHistory_step (fun _ _ h => by cases h) calls

theorem signal_unique (hok : outbox.All (OutboxOk texts)) {row row' : SignalOutboxRow} (hm : row ∈ outbox.rows)
    (hm' : row' ∈ outbox.rows) (hs : row'.signalId = row.signalId) : row' = row := by
  have hid : row'.outboxId = row.outboxId := by rw [(hok.of_mem hm').identity, (hok.of_mem hm).identity, hs]
  exact List.inj_on_of_nodup_map outbox.unique hm' hm hid

theorem enqueue_conflict (hok : outbox.All (OutboxOk texts)) {row : SignalOutboxRow} (hm : row ∈ outbox.rows)
    {payload : List (String × Json)} (hs : signalIdOf texts payload = row.signalId)
    (hne : (Json.obj row.payload).same (.obj payload) = false) (now : Time) :
    ∃ e, enqueue texts payload now outbox = .error e := by
  cases hx : enqueue texts payload now outbox with
  | error e => exact ⟨e, rfl⟩
  | ok p =>
    rcases enqueue_ok hx with ⟨_, hm', hs', hsame, he | hi⟩
    · rw [he] at hm'
      rw [signal_unique hok hm hm' (hs'.trans hs), hne] at hsame
      cases hsame
    · have hfree := (Table.insert_eq_some hi).1
      have hid : (enqueued texts payload now).outboxId = row.outboxId := by
        rw [(hok.of_mem hm).identity, ← hs]
        rfl
      rw [hid, Table.get_of_mem hm] at hfree
      cases hfree

end Runs

/-- Delivery over every run. A stored payload never changes and another payload under
its signal is refused; finished rows never change and are never claimed; a row is
marked only by the owner of its latest claim before that lease ends; and no row has more
attempts than the schedule has delays, except that the failure after the last delay is
counted on the row it dead-letters. -/
theorem signal_outbox_delivery (texts : OutboxTexts) (calls : List OutboxCall) :
    let outbox := (signalOutbox texts).run .empty calls
    (∀ row ∈ outbox.rows,
      (∀ more, ∃ row' ∈ ((signalOutbox texts).run outbox more).rows,
        row'.signalId = row.signalId ∧ row'.payload = row.payload ∧ (terminal row → row' = row)) ∧
      (∀ row' ∈ outbox.rows, row'.signalId = row.signalId → row' = row) ∧
      (∀ payload now, signalIdOf texts payload = row.signalId →
        (Json.obj row.payload).same (.obj payload) = false →
        ∃ e, (signalOutbox texts).exec outbox (.enqueue payload now) = (outbox, .error e)) ∧
      (∀ locked workerId limit leaseSeconds now rows, terminal row →
        (signalOutbox texts).outcome outbox (.claimDue locked workerId limit leaseSeconds now) =
          .ok (.claimed rows) → row.outboxId ∉ rows.map (·.outboxId)) ∧
      (row.attempts ≤ outboxRetrySeconds.length ∨
        row.status = .deadLetter ∧ row.attempts = outboxRetrySeconds.length + 1)) ∧
    (∀ outboxId workerId mark now,
      (∃ e, latestClaim outboxId ((signalOutbox texts).history .empty calls) = some (workerId, e) ∧ now < e) ∨
        ∃ e, (signalOutbox texts).exec outbox (.mark outboxId workerId mark now) = (outbox, .error e)) := by
  intro outbox
  have hok : outbox.All (OutboxOk texts) := signalOutbox_ok calls
  have hist : ClaimHistory outbox ((signalOutbox texts).history .empty calls) := signalOutbox_claimHistory calls
  refine ⟨fun row hm => ⟨fun more => ?_, fun row' hm' hs => signal_unique hok hm hm' hs, fun payload now hs hne => ?_,
    fun locked workerId limit leaseSeconds now rows ht ho hc => ?_, (hok.of_mem hm).attempts⟩,
    fun outboxId workerId mark now => ?_⟩
  · obtain ⟨row', hg, hrest⟩ := run_row texts (Table.get_of_mem hm) more
    exact ⟨row', Table.mem_of_get hg, hrest⟩
  · obtain ⟨e, he⟩ := enqueue_conflict hok hm hs hne now
    exact ⟨e, by simp [signalOutbox, execOutbox, he, Except.map]⟩
  · cases ho
    rw [claimed_ids] at hc
    have := mem_dueRows hm hc
    rw [terminal_not_claimable ht] at this
    cases this
  · cases hx : applyMark outboxId workerId mark now outbox with
    | error e => exact .inr ⟨e, by simp [signalOutbox, execOutbox, hx, Except.map]⟩
    | ok p =>
      obtain ⟨row, hg, hl, _, _⟩ := applyMark_ok.mp hx
      obtain ⟨_, ho, hlt⟩ := holdsLease_iff.mp hl
      obtain ⟨e, he, hlast⟩ := hist outboxId row hg workerId ho
      exact .inl ⟨e, hlast, hlt e he⟩

/-- Six deliveries of one signal, every one of which fails. -/
def sixFailures : List OutboxCall :=
  .enqueue [("signal_id", .str "s1")] 0 :: [100, 1000, 10000, 20000, 30000, 100000].flatMap fun t =>
    [.claimDue [] "publisher" 10 60 (seconds t), .mark "outbox-s1" "publisher" (.retry "timeout") (seconds t)]

/-- The sixth failure is counted although the schedule has five delays. -/
theorem six_failures_pass_schedule : ∃ row, ((signalOutbox ⟨id, fun _ => ""⟩).run .empty sixFailures).get
    "outbox-s1" = some row ∧ outboxRetrySeconds.length < row.attempts := by
  have hcount : (((signalOutbox ⟨id, fun _ => ""⟩).run .empty sixFailures).get "outbox-s1").map (·.attempts) =
      some 6 := by decide
  obtain ⟨row, hg, hc⟩ := Option.map_eq_some_iff.mp hcount
  exact ⟨row, hg, by rw [hc]; decide⟩

end StockContent.Signals
