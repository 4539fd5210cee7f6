import StockContent.Storage.Machine

/-! Procedures of several transactions in a row. What one of them committed stays when a
later one raises, and a handler goes on from there. -/
namespace StockContent.Storage

abbrev Procedure (S E A : Type) := ExceptT E (StateM S) A

namespace Procedure
variable {S E A B : Type}

def exec (x : Procedure S E A) (s : S) : S × Except E A :=
  let p := (x.run).run s
  (p.2, p.1)

/-- One transaction. -/
def transact (f : S → Except E (S × A)) : Procedure S E A := ExceptT.mk fun s =>
  let p := settle s (f s)
  (p.2, p.1)

@[simp] theorem exec_transact (f : S → Except E (S × A)) (s : S) : (transact f).exec s = settle s (f s) := rfl

@[simp] theorem exec_pure (a : A) (s : S) : (pure a : Procedure S E A).exec s = (s, .ok a) := rfl

@[simp] theorem exec_get (s : S) : (get : Procedure S E S).exec s = (s, .ok s) := rfl

@[simp] theorem exec_set (s s' : S) : (set s' : Procedure S E PUnit).exec s = (s', .ok ⟨⟩) := rfl

@[simp] theorem exec_throw (e : E) (s : S) : (throw e : Procedure S E A).exec s = (s, .error e) := rfl

theorem exec_bind (x : Procedure S E A) (f : A → Procedure S E B) (s : S) :
    (x >>= f).exec s = match x.exec s with
      | (s', .ok a) => (f a).exec s'
      | (s', .error e) => (s', .error e) := by
  simp only [exec, ExceptT.run_bind, StateT.run_bind]
  cases hx : (x.run).run s with
  | mk r s' => cases r <;> rfl

/-- What follows a body with a handler. -/
def rescue (handle : E → Procedure S E A) : Except E A → StateM S (Except E A)
  | .ok a => pure (.ok a)
  | .error e => (handle e).run

theorem run_tryCatch (x : Procedure S E A) (handle : E → Procedure S E A) :
    (tryCatch x handle).run = x.run >>= rescue handle := by
  change ExceptT.run (ExceptT.tryCatch x handle) = _
  simp only [ExceptT.tryCatch, ExceptT.run_mk]
  apply bind_congr
  intro r
  cases r <;> rfl

theorem exec_tryCatch (x : Procedure S E A) (handle : E → Procedure S E A) (s : S) :
    (tryCatch x handle).exec s = match x.exec s with
      | (s', .ok a) => (s', .ok a)
      | (s', .error e) => (handle e).exec s' := by
  simp only [exec, run_tryCatch, StateT.run_bind]
  cases hx : (x.run).run s with
  | mk r s' => cases r <;> rfl

variable {x : Procedure S E A} {s s' : S} {a : A} {e : E}

theorem exec_bind_ok {f : A → Procedure S E B} (h : x.exec s = (s', .ok a)) :
    (x >>= f).exec s = (f a).exec s' := by
  rw [exec_bind, h]

theorem exec_bind_error {f : A → Procedure S E B} (h : x.exec s = (s', .error e)) :
    (x >>= f).exec s = (s', .error e) := by
  rw [exec_bind, h]

theorem exec_map_ok {f : A → B} (h : x.exec s = (s', .ok a)) : (f <$> x).exec s = (s', .ok (f a)) := by
  rw [← bind_pure_comp, exec_bind_ok h, exec_pure]

theorem exec_map_error {f : A → B} (h : x.exec s = (s', .error e)) : (f <$> x).exec s = (s', .error e) := by
  rw [← bind_pure_comp, exec_bind_error h]

/-- An invariant holds after a procedure, also when it raised on the way. -/
def Preserves (I : S → Prop) (x : Procedure S E A) : Prop := ∀ s, I s → I (x.exec s).1

section Invariant
variable {I : S → Prop}

theorem Preserves.pure (a : A) : Preserves I (pure a : Procedure S E A) := fun _ h => h

theorem Preserves.throw (e : E) : Preserves I (throw e : Procedure S E A) := fun _ h => h

theorem Preserves.transact {f : S → Except E (S × A)} (h : ∀ s s' a, I s → f s = .ok (s', a) → I s') :
    Preserves I (transact f) := by
  intro s hs
  rw [exec_transact]
  cases hf : f s with
  | error e => exact hs
  | ok p => exact h s p.1 p.2 hs hf

theorem Preserves.bind {f : A → Procedure S E B} (hx : Preserves I x) (hf : ∀ a, Preserves I (f a)) :
    Preserves I (x >>= f) := by
  intro s hs
  have hs' := hx s hs
  rw [exec_bind]
  revert hs'
  cases x.exec s with
  | mk s' r =>
    intro hs'
    cases r with
    | error e => exact hs'
    | ok a => exact hf a s' hs'

theorem Preserves.get_bind {f : S → Procedure S E B} (hf : ∀ s, I s → I ((f s).exec s).1) :
    Preserves I (get >>= f) := by
  intro s hs
  rw [exec_bind_ok (exec_get s)]
  exact hf s hs

theorem Preserves.tryCatch {handle : E → Procedure S E A} (hx : Preserves I x) (hh : ∀ e, Preserves I (handle e)) :
    Preserves I (tryCatch x handle) := by
  intro s hs
  have hs' := hx s hs
  rw [exec_tryCatch]
  revert hs'
  cases x.exec s with
  | mk s' r =>
    intro hs'
    cases r with
    | error e => exact hh e s' hs'
    | ok a => exact hs'

end Invariant
end Procedure
end StockContent.Storage
