import Mathlib.Data.List.Basic
import StockContent.Storage.Clock

/-! Leases with fencing tokens, seen from outside the store: the leases that were
handed out and extended, and what a record must carry to agree with them. -/
namespace StockContent.Storage

structure Lease (W : Type) where
  owner : W
  token : Nat
  expiresAt : Time

/-- What a holder can observe of one record: it was given the lease, or kept it longer. -/
inductive LeaseEvent (W : Type) where
  | granted (lease : Lease W)
  | extended (expiresAt : Time)

section Ledger
variable {W : Type}

def LeaseEvent.after (lease : Option (Lease W)) : LeaseEvent W → Option (Lease W)
  | .granted l => some l
  | .extended expiresAt => lease.map fun l => { l with expiresAt }

/-- The lease of the most recent grant, with the expiry it was last extended to. -/
def latestLease (events : List (LeaseEvent W)) : Option (Lease W) :=
  events.foldl LeaseEvent.after none

@[simp] theorem latestLease_concat (events : List (LeaseEvent W)) (e : LeaseEvent W) :
    latestLease (events ++ [e]) = e.after (latestLease events) := by
  simp [latestLease]

def LeaseEvent.token? : LeaseEvent W → Option Nat
  | .granted l => some l.token
  | .extended _ => none

def grantedTokens (events : List (LeaseEvent W)) : List Nat := events.filterMap LeaseEvent.token?

/-- A record agrees with the leases handed out for it: no token is ahead of its own,
tokens were granted in increasing order, and an owner holds the latest lease. -/
structure LeaseAgrees (events : List (LeaseEvent W)) (owner : Option W) (token : Nat)
    (expiresAt : Option Time) : Prop where
  behind : ∀ t ∈ grantedTokens events, t ≤ token
  increasing : (grantedTokens events).Pairwise (· < ·)
  held : ∀ w, owner = some w → ∃ e, expiresAt = some e ∧ latestLease events = some ⟨w, token, e⟩

theorem LeaseAgrees.fresh (token : Nat) (expiresAt : Option Time) :
    LeaseAgrees ([] : List (LeaseEvent W)) none token expiresAt :=
  ⟨by simp [grantedTokens], by simp [grantedTokens], by simp⟩

variable {events : List (LeaseEvent W)} {owner : Option W} {token : Nat} {expiresAt : Option Time}

/-- Handing out the next token keeps the agreement, whoever held the lease before. -/
theorem LeaseAgrees.grant (h : LeaseAgrees events owner token expiresAt) (w : W) (e : Time) :
    LeaseAgrees (events ++ [.granted ⟨w, token + 1, e⟩]) (some w) (token + 1) (some e) := by
  have ht : grantedTokens (events ++ [.granted ⟨w, token + 1, e⟩]) = grantedTokens events ++ [token + 1] := by
    simp [grantedTokens, LeaseEvent.token?]
  refine ⟨?_, ?_, ?_⟩
  · intro t hm
    rw [ht, List.mem_append, List.mem_singleton] at hm
    rcases hm with hm | rfl
    · exact Nat.le_trans (h.behind t hm) (Nat.le_succ token)
    · exact Nat.le_refl _
  · rw [ht, List.pairwise_append]
    refine ⟨h.increasing, List.pairwise_singleton _ _, ?_⟩
    intro t hm u hu
    have := h.behind t hm
    rw [List.mem_singleton.mp hu]
    omega
  · intro v hv
    cases hv
    exact ⟨e, rfl, by simp [LeaseEvent.after]⟩

theorem LeaseAgrees.extend {w : W} (h : LeaseAgrees events (some w) token expiresAt) (e : Time) :
    LeaseAgrees (events ++ [.extended e]) (some w) token (some e) := by
  have ht : grantedTokens (events ++ [.extended e]) = grantedTokens events := by
    simp [grantedTokens, LeaseEvent.token?]
  refine ⟨ht ▸ h.behind, ht ▸ h.increasing, ?_⟩
  intro v hv
  cases hv
  obtain ⟨e', _, hl⟩ := h.held w rfl
  exact ⟨e, rfl, by simp [hl, LeaseEvent.after]⟩

theorem LeaseAgrees.release (h : LeaseAgrees events owner token expiresAt) (expiresAt' : Option Time) :
    LeaseAgrees events none token expiresAt' :=
  ⟨h.behind, h.increasing, fun _ hw => by cases hw⟩

end Ledger
end StockContent.Storage
