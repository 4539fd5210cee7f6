import StockContent.Storage.Procedure

/-! Pre- and postconditions of procedures, one postcondition for returning and one for raising. -/
namespace StockContent.Storage.Procedure
variable {S E A B : Type}

/-- A step from a state to a state that is kept also when it raises. -/
def step (f : S → S × Except E A) : Procedure S E A := ExceptT.mk fun s => ((f s).2, (f s).1)

@[simp] theorem exec_step (f : S → S × Except E A) (s : S) : (step f).exec s = f s := rfl

/-- Lift what does not touch the state. -/
def attempt (x : Except E A) : Procedure S E A := step fun s => (s, x)

theorem exec_attempt_bind (a : A) (f : A → Procedure S E B) (s : S) : (attempt (.ok a) >>= f).exec s = (f a).exec s := rfl

/-- What holds after an outcome. -/
def Holds (Q : A → S → Prop) (R : E → S → Prop) : S × Except E A → Prop
  | (s, .ok a) => Q a s
  | (s, .error e) => R e s

def Triple (P : S → Prop) (x : Procedure S E A) (Q : A → S → Prop) (R : E → S → Prop) : Prop :=
  ∀ s, P s → Holds Q R (x.exec s)

section Rules
variable {P P' : S → Prop} {Q Q' : A → S → Prop} {R R' : E → S → Prop} {x : Procedure S E A}

theorem Triple.pure {a : A} (h : ∀ s, P s → Q a s) : Triple P (pure a) Q R := h

theorem Triple.throw {e : E} (h : ∀ s, P s → R e s) : Triple P (throw e : Procedure S E A) Q R := h

theorem Triple.step {f : S → S × Except E A} (h : ∀ s, P s → Holds Q R (f s)) : Triple P (step f) Q R := h

theorem Triple.transact {f : S → Except E (S × A)} (hok : ∀ s, P s → ∀ s' a, f s = .ok (s', a) → Q a s')
    (herror : ∀ s, P s → ∀ e, f s = .error e → R e s) : Triple P (transact f) Q R := by
  intro s hs
  rw [exec_transact]
  cases hf : f s with
  | ok result => exact hok s hs result.1 result.2 hf
  | error e => exact herror s hs e hf

theorem Triple.attempt {y : Except E A} (hok : ∀ a, y = .ok a → ∀ s, P s → Q a s)
    (herror : ∀ e, y = .error e → ∀ s, P s → R e s) : Triple P (attempt y) Q R := by
  intro s hs
  cases y with
  | ok a => exact hok a rfl s hs
  | error e => exact herror e rfl s hs

theorem Triple.bind {f : A → Procedure S E B} {Q' : B → S → Prop} (hx : Triple P x Q R)
    (hf : ∀ a, Triple (Q a) (f a) Q' R) : Triple P (x >>= f) Q' R := by
  intro s hs
  have hs' := hx s hs
  rw [exec_bind]
  revert hs'
  cases x.exec s with
  | mk s' r =>
    intro hs'
    cases r with
    | ok a => exact hf a s' hs'
    | error e => exact hs'

/-- Strengthen what is asked, weaken what is promised. -/
theorem Triple.weaken (h : Triple P x Q R) (hP : ∀ s, P' s → P s) (hQ : ∀ a s, Q a s → Q' a s)
    (hR : ∀ e s, R e s → R' e s) : Triple P' x Q' R' := by
  intro s hs
  have hs' := h s (hP s hs)
  revert hs'
  cases x.exec s with
  | mk s' r =>
    cases r with
    | ok a => exact hQ a s'
    | error e => exact hR e s'

theorem Triple.pre (h : Triple P x Q R) (hP : ∀ s, P' s → P s) : Triple P' x Q R :=
  h.weaken hP (fun _ _ h => h) fun _ _ h => h

theorem Triple.post (h : Triple P x Q R) (hQ : ∀ a s, Q a s → Q' a s) : Triple P x Q' R :=
  h.weaken (fun _ h => h) hQ fun _ _ h => h

/-- Nothing is asked and nothing promised. -/
theorem Triple.trivial (x : Procedure S E A) : Triple (fun _ => True) x (fun _ _ => True) fun _ _ => True := by
  intro s _
  cases x.exec s with
  | mk s' r => cases r <;> exact True.intro

/-- A fact that does not depend on the state can be taken out of the precondition. -/
theorem Triple.fact {p : Prop} (h : p → Triple P x Q R) : Triple (fun s => p ∧ P s) x Q R :=
  fun s hs => h hs.1 s hs.2

theorem Triple.ok (h : Triple P x Q R) {s s' : S} {a : A} (hs : P s) (hx : x.exec s = (s', .ok a)) : Q a s' := by
  have hs' := h s hs
  rw [hx] at hs'
  exact hs'

end Rules
end StockContent.Storage.Procedure
