/-
Readings of named values that may be refused: what a refusal is to blame on, and
which changes of the values a reading does not notice.
-/
import Mathlib.Control.Monad.Basic
import Mathlib.Logic.Basic

namespace KiteX402

universe u

variable {K V E : Type} {A B S : Type}

/-- A reading of values under names. -/
abbrev Setting (K V E : Type) := ReaderT (K → V) (Except E)

namespace Setting

theorem bind_eq_ok {reading : Setting K V E A} {next : A → Setting K V E B} {values : K → V}
    {b : B} : (reading >>= next).run values = .ok b ↔
      ∃ a, reading.run values = .ok a ∧ (next a).run values = .ok b := by
  rw [ReaderT.run_bind]
  cases reading.run values with
  | error error => simp [bind, Except.bind]
  | ok a => simp [bind, Except.bind]

theorem bind_eq_error {reading : Setting K V E A} {next : A → Setting K V E B} {values : K → V}
    {error : E} : (reading >>= next).run values = .error error ↔
      reading.run values = .error error ∨
      ∃ a, reading.run values = .ok a ∧ (next a).run values = .error error := by
  rw [ReaderT.run_bind]
  cases reading.run values with
  | error error => simp [bind, Except.bind]
  | ok a => simp [bind, Except.bind]

/-- Every refusal is to blame on the value under one name, which `P` says that the
error tells: whatever the other values are, and whatever `R` says may have been read
from them before, the reading is refused. -/
def Blames (R : S → (K → V) → Prop) (P : E → K → Prop) (reading : S → Setting K V E A) : Prop :=
  ∀ s values error, R s values → (reading s).run values = .error error → ∃ name, P error name ∧
    ∀ s' values', R s' values' → values' name = values name →
      ∀ a, (reading s').run values' ≠ .ok a

/-- A reading that looks at one name only. -/
def Reads (name : K) (reading : Setting K V E A) : Prop :=
  ∀ values values', values' name = values name → reading.run values' = reading.run values

/-- A reading whose errors tell a name. -/
def Tells (P : E → K → Prop) (name : K) (reading : Setting K V E A) : Prop :=
  ∀ values error, reading.run values = .error error → P error name

/-- A reading that is never refused. -/
def Accepts (reading : Setting K V E A) : Prop :=
  ∀ values error, reading.run values ≠ .error error

variable {R : S → (K → V) → Prop} {P : E → K → Prop} {name : K}

theorem Reads.pure (value : A) : Reads name (pure value : Setting K V E A) := fun _ _ _ => rfl

theorem Reads.bind {reading : Setting K V E A} {next : A → Setting K V E B}
    (hreading : Reads name reading) (hnext : ∀ a, Reads name (next a)) :
    Reads name (reading >>= next) := by
  intro values values' hsame
  rw [ReaderT.run_bind, ReaderT.run_bind, hreading values values' hsame]
  cases reading.run values with
  | error error => rfl
  | ok a => exact hnext a values values' hsame

theorem Accepts.pure (value : A) : Accepts (pure value : Setting K V E A) :=
  fun _ _ h => by simp [Pure.pure, ReaderT.pure, ReaderT.run, Except.pure] at h

theorem Accepts.bind {reading : Setting K V E A} {next : A → Setting K V E B}
    (hreading : Accepts reading) (hnext : ∀ a, Accepts (next a)) :
    Accepts (reading >>= next) := by
  intro values error h
  rcases bind_eq_error.mp h with hfirst | ⟨a, _, hlast⟩
  · exact hreading values error hfirst
  · exact hnext a values error hlast

theorem Accepts.tells {reading : Setting K V E A} (haccepts : Accepts reading) :
    Tells P name reading :=
  fun values error h => absurd h (haccepts values error)

theorem Accepts.blames {reading : S → Setting K V E A} (haccepts : ∀ s, Accepts (reading s)) :
    Blames R P reading :=
  fun s values error _ h => absurd h (haccepts s values error)

theorem Tells.bind {reading : Setting K V E A} {next : A → Setting K V E B}
    (hreading : Tells P name reading) (hnext : ∀ a, Tells P name (next a)) :
    Tells P name (reading >>= next) := by
  intro values error h
  rcases bind_eq_error.mp h with hfirst | ⟨a, _, hlast⟩
  · exact hreading values error hfirst
  · exact hnext a values error hlast

/-- What comes later is blamed after what comes first, and may rely on it. -/
theorem Blames.bind {reading : S → Setting K V E A} {next : S → A → Setting K V E B}
    (hreading : Blames R P reading)
    (hnext : Blames (fun s values => R s.1 values ∧ (reading s.1).run values = .ok s.2) P
      fun s : S × A => next s.1 s.2) :
    Blames R P fun s => reading s >>= next s := by
  intro s values error hs herror
  rcases bind_eq_error.mp herror with hfirst | ⟨a, ha, hlast⟩
  · obtain ⟨name, hname, hblame⟩ := hreading s values error hs hfirst
    refine ⟨name, hname, fun s' values' hs' hsame b hok => ?_⟩
    obtain ⟨a, ha, _⟩ := bind_eq_ok.mp hok
    exact hblame s' values' hs' hsame a ha
  · obtain ⟨name, hname, hblame⟩ := hnext (s, a) values error ⟨hs, ha⟩ hlast
    refine ⟨name, hname, fun s' values' hs' hsame b hok => ?_⟩
    obtain ⟨a', ha', hb⟩ := bind_eq_ok.mp hok
    exact hblame (s', a') values' ⟨hs', ha'⟩ hsame b hb

/-- A reading of one name is to blame on it. -/
theorem Reads.blames {reading : Setting K V E A} (hreads : Reads name reading)
    (htells : Tells P name reading) : Blames R P fun _ : S => reading := by
  intro _ values error _ herror
  refine ⟨name, htells values error herror, fun _ values' _ hsame a hok => ?_⟩
  rw [hreads values values' hsame, herror] at hok
  contradiction

/-- So is a reading that goes on with what was read under its name before. -/
theorem Reads.blames_again {reading : Setting K V E A} (hreads : Reads name reading)
    (again : A → Setting K V E B) (hreads' : ∀ a, Reads name (again a))
    (htells : ∀ a, Tells P name (again a)) (earlier : S → A)
    (hearlier : ∀ s values, R s values → reading.run values = .ok (earlier s)) :
    Blames R P fun s => again (earlier s) := by
  intro s values error hs herror
  refine ⟨name, htells _ values error herror, fun s' values' hs' hsame b hok => ?_⟩
  have hvalue : earlier s' = earlier s := by
    have hsame' := hreads values values' hsame
    rw [hearlier s values hs, hearlier s' values' hs'] at hsame'
    exact Except.ok.inj hsame'
  have hrun := hreads' (earlier s) values values' hsame
  rw [herror, ← hvalue, hok] at hrun
  contradiction

/-- What is read has a property. -/
def Yields (Q : A → Prop) (reading : Setting K V E A) : Prop :=
  ∀ values a, reading.run values = .ok a → Q a

theorem Yields.pure {Q : A → Prop} {value : A} (h : Q value) :
    Yields Q (pure value : Setting K V E A) := by
  intro values a ha
  rwa [← Except.ok.inj ha]

theorem Yields.true (reading : Setting K V E A) : Yields (fun _ => True) reading :=
  fun _ _ _ => trivial

theorem Yields.bind {Q : A → Prop} {Q' : B → Prop} {reading : Setting K V E A}
    {next : A → Setting K V E B} (hreading : Yields Q reading)
    (hnext : ∀ a, Q a → Yields Q' (next a)) : Yields Q' (reading >>= next) := by
  intro values b hb
  obtain ⟨a, ha, hb⟩ := bind_eq_ok.mp hb
  exact hnext a (hreading values a ha) values b hb

/-- A change of the values that a reading does not notice. -/
def Ignores (change : (K → V) → K → V) (reading : Setting K V E A) : Prop :=
  ∀ values, reading.run (change values) = reading.run values

variable {change : (K → V) → K → V}

theorem Ignores.pure (value : A) : Ignores change (pure value : Setting K V E A) :=
  fun _ => rfl

theorem Ignores.bind {reading : Setting K V E A} {next : A → Setting K V E B}
    (hreading : Ignores change reading) (hnext : ∀ a, Ignores change (next a)) :
    Ignores change (reading >>= next) := by
  intro values
  rw [ReaderT.run_bind, ReaderT.run_bind, hreading values]
  cases reading.run values with
  | error error => rfl
  | ok a => exact hnext a values

end Setting

end KiteX402
