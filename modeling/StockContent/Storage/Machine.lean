import Mathlib.Data.List.Forall2

/-! Atomic calls on a shared store. A run is any list of calls, so a statement
about every list of calls is a statement about every interleaving of their callers.
What holds in every state a run reaches, and of every call where the run finds it, is
said of the run's prefixes. -/
namespace StockContent.Storage

/-- Commit the state of a transaction that returned, keep the old one otherwise. -/
def settle {S E A : Type} (s : S) : Except E (S × A) → S × Except E A
  | .ok (s', a) => (s', .ok a)
  | .error e => (s, .error e)

section Settle
variable {S E A : Type} {s : S} {x : Except E (S × A)}

@[simp] theorem settle_ok (s : S) (p : S × A) :
    settle s (.ok p : Except E (S × A)) = (p.1, .ok p.2) := rfl
@[simp] theorem settle_error (s : S) (e : E) :
    settle s (.error e : Except E (S × A)) = (s, .error e) := rfl

theorem settle_committed {a : A} (h : (settle s x).2 = .ok a) : x = .ok ((settle s x).1, a) := by
  cases x with
  | ok p => cases p; cases h; rfl
  | error e => cases h

end Settle

/-- A transaction of two parts returns when both do. -/
theorem bind_eq_ok {E A B : Type} {x : Except E A} {f : A → Except E B} {b : B} :
    (x >>= f) = .ok b ↔ ∃ a, x = .ok a ∧ f a = .ok b := by
  constructor
  · intro h
    cases x with
    | error e => cases h
    | ok a => exact ⟨a, rfl, h⟩
  · rintro ⟨a, rfl, h⟩
    exact h

theorem bind_eq_error {E A B : Type} {x : Except E A} {f : A → Except E B} {e : E} :
    (x >>= f) = .error e ↔ x = .error e ∨ ∃ a, x = .ok a ∧ f a = .error e := by
  cases x with
  | error e' =>
    constructor
    · rintro ⟨⟩
      exact .inl rfl
    · rintro (h | ⟨_, h, _⟩)
      · cases h; rfl
      · cases h
  | ok a =>
    constructor
    · exact fun h => .inr ⟨a, rfl, h⟩
    · rintro (h | ⟨_, h, hf⟩)
      · cases h
      · cases h; exact hf

@[simp] theorem ok_bind {E A B : Type} (a : A) (f : A → Except E B) : (Except.ok a >>= f) = f a := rfl

theorem then_eq_ok {E B : Type} {x : Except E Unit} {y : Except E B} {b : B} :
    (x >>= fun _ => y) = .ok b ↔ x = .ok () ∧ y = .ok b := by
  rw [bind_eq_ok]
  exact Unique.exists_iff

theorem map_eq_ok {E A B : Type} {x : Except E A} {f : A → B} {b : B} : x.map f = .ok b ↔ ∃ a, x = .ok a ∧ f a = b := by
  cases x <;> simp [Except.map]

theorem mapError_eq_ok {E F A : Type} {x : Except E A} {f : E → F} {a : A} :
    x.mapError f = .ok a ↔ x = .ok a := by
  cases x <;> simp [Except.mapError]

/-- Refuse with `error` what does not meet a condition. -/
def require {E : Type} (error : E) (condition : Bool) : Except E Unit :=
  if condition then .ok () else .error error

theorem require_eq_ok {E : Type} {error : E} {condition : Bool} :
    require error condition = .ok () ↔ condition = true := by
  cases condition <;> simp [require]

theorem require_eq_error {E : Type} {error e : E} {condition : Bool} :
    require error condition = .error e ↔ condition = false ∧ e = error := by
  cases condition <;> simp [require, eq_comm]

/-- What refuses a missing value returns the value that is there. -/
theorem elim_eq_ok {E A : Type} {error : E} {x : Option A} {a : A} :
    x.elim (.error error) .ok = Except.ok a ↔ x = some a := by
  cases x <;> simp

theorem toBool_eq_true {E A : Type} {x : Except E A} : x.toBool = true ↔ ∃ a, x = .ok a := by
  cases x with
  | error e => simp [Except.toBool]
  | ok a => simp [Except.toBool]

theorem toOption_eq_some {E A : Type} {x : Except E A} {a : A} : x.toOption = some a ↔ x = .ok a := by
  cases x with
  | error e => simp [Except.toOption]
  | ok b => simp [Except.toOption]

theorem forM_eq_ok {E A : Type} {f : A → Except E Unit} {xs : List A} :
    xs.forM f = .ok () ↔ ∀ x ∈ xs, f x = .ok () := by
  induction xs with
  | nil => exact iff_of_true rfl (by simp)
  | cons x xs ih =>
    change (f x >>= fun _ => xs.forM f) = .ok () ↔ _
    rw [List.forall_mem_cons, ← ih, bind_eq_ok]
    constructor
    · rintro ⟨⟨⟩, hx, hxs⟩
      exact ⟨hx, hxs⟩
    · rintro ⟨hx, hxs⟩
      exact ⟨(), hx, hxs⟩

theorem mapM_eq_map {E A B : Type} {f : A → Except E B} {g : A → B} {xs : List A} (h : ∀ x ∈ xs, f x = .ok (g x)) :
    xs.mapM f = .ok (xs.map g) := by
  induction xs with
  | nil => rfl
  | cons x xs ih =>
    obtain ⟨hx, hxs⟩ := List.forall_mem_cons.mp h
    rw [List.mapM_cons, hx, ih hxs]
    rfl

/-- A pass whose calls return what `g` says wherever they accept. -/
theorem mapM_eq_ok {E A B : Type} {f : A → Except E B} {g : A → B} {P : A → Prop} {xs : List A} {ys : List B}
    (h : ∀ x ∈ xs, ∀ y, f x = .ok y ↔ y = g x ∧ P x) : xs.mapM f = .ok ys ↔ ys = xs.map g ∧ ∀ x ∈ xs, P x := by
  induction xs generalizing ys with
  | nil => simp [pure, Except.pure, eq_comm]
  | cons x xs ih =>
    obtain ⟨hx, hxs⟩ := List.forall_mem_cons.mp h
    rw [List.mapM_cons, List.forall_mem_cons, List.map_cons]
    constructor
    · intro hrun
      obtain ⟨y, hy, hrun⟩ := bind_eq_ok.mp hrun
      obtain ⟨rest, hrest, hrun⟩ := bind_eq_ok.mp hrun
      obtain ⟨rfl, hp⟩ := (hx y).mp hy
      obtain ⟨rfl, hps⟩ := (ih hxs).mp hrest
      cases hrun
      exact ⟨rfl, hp, hps⟩
    · rintro ⟨rfl, hp, hps⟩
      rw [(hx (g x)).mpr ⟨rfl, hp⟩, (ih hxs).mpr ⟨rfl, hps⟩]
      rfl

theorem mapM_eq_ok_iff {E A B : Type} {f : A → Except E B} {xs : List A} {ys : List B} :
    xs.mapM f = .ok ys ↔ List.Forall₂ (fun x y => f x = .ok y) xs ys := by
  induction xs generalizing ys with
  | nil => simp [pure, Except.pure, eq_comm]
  | cons x xs ih =>
    rw [List.mapM_cons, List.forall₂_cons_left_iff]
    constructor
    · intro h
      obtain ⟨y, hy, h⟩ := bind_eq_ok.mp h
      obtain ⟨rest, hrest, h⟩ := bind_eq_ok.mp h
      cases h
      exact ⟨y, rest, hy, ih.mp hrest, rfl⟩
    · rintro ⟨y, rest, hy, hrest, rfl⟩
      rw [hy, ih.mpr hrest]
      rfl

theorem mem_of_mapM {E A B : Type} {f : A → Except E B} {xs : List A} {ys : List B} (h : xs.mapM f = .ok ys)
    {y : B} (hy : y ∈ ys) : ∃ x ∈ xs, f x = .ok y := by
  induction xs generalizing ys with
  | nil =>
    cases h
    cases hy
  | cons x xs ih =>
    rw [List.mapM_cons] at h
    obtain ⟨b, hb, h⟩ := bind_eq_ok.mp h
    obtain ⟨bs, hbs, h⟩ := bind_eq_ok.mp h
    cases h
    rcases List.mem_cons.mp hy with rfl | hy
    · exact ⟨x, List.mem_cons_self, hb⟩
    · obtain ⟨a, ha, hfa⟩ := ih hbs hy
      exact ⟨a, List.mem_cons_of_mem x ha, hfa⟩

theorem exists_of_mapM {E A B : Type} {f : A → Except E B} {xs : List A} {ys : List B} (h : xs.mapM f = .ok ys)
    {x : A} (hx : x ∈ xs) : ∃ y ∈ ys, f x = .ok y := by
  have hpairs := mapM_eq_ok_iff.mp h
  clear h
  induction hpairs with
  | nil => cases hx
  | cons hy _ ih =>
    rcases List.mem_cons.mp hx with rfl | hx
    · exact ⟨_, List.mem_cons_self, hy⟩
    · obtain ⟨y, hmem, hfy⟩ := ih hx
      exact ⟨y, List.mem_cons_of_mem _ hmem, hfy⟩

/-- A store whose state changes only through atomic calls. -/
structure Machine (S C O : Type) where
  exec : S → C → S × O

namespace Machine
variable {S C O : Type} (m : Machine S C O)

def step (s : S) (c : C) : S := (m.exec s c).1
def outcome (s : S) (c : C) : O := (m.exec s c).2

def run (s : S) (cs : List C) : S := cs.foldl m.step s

/-- The calls of a run with what each of them returned, oldest first. -/
def history : S → List C → List (C × O)
  | _, [] => []
  | s, c :: cs => (c, m.outcome s c) :: history (m.step s c) cs

@[simp] theorem run_nil (s : S) : m.run s [] = s := rfl
@[simp] theorem run_cons (s : S) (c : C) (cs : List C) : m.run s (c :: cs) = m.run (m.step s c) cs := rfl
@[simp] theorem run_append (s : S) (cs ds : List C) : m.run s (cs ++ ds) = m.run (m.run s cs) ds :=
  List.foldl_append

@[simp] theorem history_nil (s : S) : m.history s [] = [] := rfl
@[simp] theorem history_cons (s : S) (c : C) (cs : List C) :
    m.history s (c :: cs) = (c, m.outcome s c) :: m.history (m.step s c) cs := rfl

theorem history_concat (s : S) (cs : List C) (c : C) :
    m.history s (cs ++ [c]) = m.history s cs ++ [(c, m.outcome (m.run s cs) c)] := by
  induction cs generalizing s with
  | nil => rfl
  | cons d cs ih =>
    rw [List.cons_append, history_cons, ih, history_cons, run_cons]
    rfl

/-- What every call preserves holds after every run. -/
theorem run_invariant {I : S → Prop} (hstep : ∀ s c, I s → I (m.step s c)) {s : S} (h : I s)
    (cs : List C) : I (m.run s cs) := by
  induction cs generalizing s with
  | nil => exact h
  | cons c cs ih => exact ih (hstep s c h)

/-- A relation that every call respects, between any two states of a run. -/
theorem run_related {I : S → Prop} {T : S → S → Prop} (hr : ∀ s, T s s)
    (ht : ∀ s t u, T s t → T t u → T s u) (hi : ∀ s c, I s → I (m.step s c))
    (hstep : ∀ s c, I s → T s (m.step s c)) {s : S} (h : I s) (cs : List C) : T s (m.run s cs) := by
  induction cs generalizing s with
  | nil => exact hr s
  | cons c cs ih => exact ht _ _ _ (hstep s c h) (ih (hi s c h))

/-- Invariants that tie the state to everything returned so far. -/
theorem history_invariant {J : S → List (C × O) → Prop}
    (hstep : ∀ s h c, J s h → J (m.step s c) (h ++ [(c, m.outcome s c)])) {s : S} (h : J s [])
    (cs : List C) : J (m.run s cs) (m.history s cs) := by
  have main (past : List (C × O)) (hp : J s past) : J (m.run s cs) (past ++ m.history s cs) := by
    clear h
    induction cs generalizing s past with
    | nil => simpa using hp
    | cons c cs ih => simpa using ih _ (hstep s past c hp)
  exact main [] h

/-- A condition on every call of a run, read in the state the call finds. -/
def Along (P : S → C → Prop) : S → List C → Prop
  | _, [] => True
  | s, c :: cs => P s c ∧ Along P (m.step s c) cs

theorem along_append {P : S → C → Prop} {s : S} {cs ds : List C} :
    m.Along P s (cs ++ ds) ↔ m.Along P s cs ∧ m.Along P (m.run s cs) ds := by
  induction cs generalizing s with
  | nil => exact ⟨fun h => ⟨trivial, h⟩, And.right⟩
  | cons c cs ih => exact (and_congr_right fun _ => ih).trans and_assoc.symm

/-- Some call of a run meets a condition in the state it finds. -/
def Happens (P : S → C → Prop) : S → List C → Prop
  | _, [] => False
  | s, c :: cs => P s c ∨ Happens P (m.step s c) cs

theorem happens_append {P : S → C → Prop} {s : S} {cs ds : List C} :
    m.Happens P s (cs ++ ds) ↔ m.Happens P s cs ∨ m.Happens P (m.run s cs) ds := by
  induction cs generalizing s with
  | nil => exact ⟨.inr, fun h => h.resolve_left id⟩
  | cons c cs ih => exact (or_congr_right ih).trans or_assoc.symm

theorem happens_concat {P : S → C → Prop} {s : S} {cs : List C} {c : C} :
    m.Happens P s (cs ++ [c]) ↔ m.Happens P s cs ∨ P (m.run s cs) c := by
  rw [happens_append]
  exact or_congr_right (or_iff_left id)

theorem along_concat {P : S → C → Prop} {s : S} {cs : List C} {c : C} :
    m.Along P s (cs ++ [c]) ↔ m.Along P s cs ∧ P (m.run s cs) c := by
  rw [along_append]
  exact and_congr_right fun _ => and_iff_left trivial

theorem run_concat (s : S) (cs : List C) (c : C) : m.run s (cs ++ [c]) = m.step (m.run s cs) c := run_append m s cs [c]

/-- Two conditions that agree in invariant states agree along every run, where the
invariant has to hold only as long as the first condition does. -/
theorem along_congr {I : S → Prop} {P Q : S → C → Prop} (hi : ∀ s c, I s → P s c → I (m.step s c))
    (hpq : ∀ s c, I s → (P s c ↔ Q s c)) {s : S} (h : I s) (cs : List C) :
    m.Along P s cs ↔ m.Along Q s cs := by
  induction cs generalizing s with
  | nil => exact Iff.rfl
  | cons c cs ih =>
    simp only [Along, ← hpq s c h]
    exact and_congr_right fun hp => ih (hi s c h hp)

/-- What a condition says of one call in an invariant state, it says along every run. -/
theorem along_mono {I : S → Prop} {P Q : S → C → Prop} (hi : ∀ s c, I s → P s c → I (m.step s c))
    (hpq : ∀ s c, I s → P s c → Q s c) {s : S} (h : I s) {cs : List C} (hp : m.Along P s cs) : m.Along Q s cs := by
  induction cs generalizing s with
  | nil => exact hp
  | cons c cs ih => exact ⟨hpq s c h hp.1, ih (hi s c h hp.1) hp.2⟩

/-- What every call preserves that meets a condition holds after every run that meets it. -/
theorem run_of_along {I : S → Prop} {P : S → C → Prop} (hi : ∀ s c, I s → P s c → I (m.step s c)) {s : S} (h : I s)
    {cs : List C} (hp : m.Along P s cs) : I (m.run s cs) := by
  induction cs generalizing s with
  | nil => exact h
  | cons c cs ih => exact ih (hi s c h hp.1) hp.2

/-- An event that leaves the store in a state where it cannot happen again
happens at most once in a run. -/
theorem history_countP_le_one {I D : S → Prop} {p : C × O → Bool}
    (hi : ∀ s c, I s → I (m.step s c)) (hd : ∀ s c, I s → D s → D (m.step s c))
    (hp : ∀ s c, I s → p (c, m.outcome s c) = true → D (m.step s c))
    (hn : ∀ s c, I s → D s → p (c, m.outcome s c) = false) {s : S} (h : I s) (cs : List C) :
    (m.history s cs).countP p ≤ 1 := by
  have hz {s : S} (h : I s) (hD : D s) (cs : List C) : (m.history s cs).countP p = 0 := by
    induction cs generalizing s with
    | nil => rfl
    | cons c cs ih => simp [hn s c h hD, ih (hi s c h) (hd s c h hD)]
  induction cs generalizing s with
  | nil => simp
  | cons c cs ih =>
    cases hc : p (c, m.outcome s c) with
    | false => simpa [hc] using ih (hi s c h)
    | true => simp [hc, hz (hi s c h) (hp s c h hc) cs]

section Prefixes
variable {s : S} {cs : List C}

/-- A condition along a run is a condition on each call, in the state its prefix leads to. -/
theorem along_iff {P : S → C → Prop} :
    m.Along P s cs ↔ ∀ done c rest, cs = done ++ c :: rest → P (m.run s done) c := by
  constructor
  · rintro h done c rest rfl
    exact ((m.along_append).mp h).2.1
  · intro h
    induction cs generalizing s with
    | nil => trivial
    | cons c cs ih =>
      refine ⟨h [] c cs rfl, ih fun done d rest hsplit => ?_⟩
      exact h (c :: done) d rest (congrArg (c :: ·) hsplit)

instance decidableAlong {P : S → C → Prop} [∀ s c, Decidable (P s c)] : (s : S) → (cs : List C) → Decidable (m.Along P s cs)
  | _, [] => isTrue trivial
  | s, c :: cs =>
    have := decidableAlong (P := P) (m.step s c) cs
    inferInstanceAs (Decidable (P s c ∧ m.Along P (m.step s c) cs))

/-- A condition holds in every state of a run. -/
def Throughout (I : S → Prop) (s : S) (cs : List C) : Prop := ∀ done rest, cs = done ++ rest → I (m.run s done)

theorem throughout_iff {I : S → Prop} :
    m.Throughout I s cs ↔ I s ∧ m.Along (fun s c => I (m.step s c)) s cs := by
  constructor
  · intro h
    refine ⟨h [] cs rfl, (m.along_iff).mpr fun done c rest hsplit => ?_⟩
    rw [← run_concat]
    exact h (done ++ [c]) rest (by rw [hsplit, List.append_assoc]; rfl)
  · rintro ⟨hs, h⟩ done rest rfl
    exact m.run_of_along (P := fun s c => I (m.step s c)) (fun _ _ _ hp => hp) hs ((m.along_append).mp h).1

/-- An invariant that a call keeps exactly when it meets a condition holds throughout a
run exactly when every call of the run meets it. -/
theorem throughout_iff_along {I : S → Prop} {P : S → C → Prop} (hstep : ∀ s c, I s → (I (m.step s c) ↔ P s c))
    (hs : I s) : m.Throughout I s cs ↔ m.Along P s cs := by
  rw [throughout_iff, and_iff_right hs]
  exact m.along_congr (fun _ _ _ hp => hp) hstep hs cs

end Prefixes

end Machine
end StockContent.Storage
