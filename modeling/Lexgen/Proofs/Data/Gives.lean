/-
# What the results of a computation have in common

`Gives` says of a computation that may fail what all its results have in common. Nothing is said of
failures, so that the steps of a reader can be followed one after the other.

Key definitions: `Gives`.
Key theorems: `Gives.bind`, `Gives.foldlM`.
-/
import Lexgen.Data.Steps

namespace Lexgen.Data

variable {α β ε : Type} {p : α → Prop} {q : β → Prop}

/-- Whatever the computation gives, if it gives anything, has the property. -/
def Gives (p : α → Prop) (x : Except ε α) : Prop := ∀ a, x = .ok a → p a

theorem Gives.ok {a : α} (h : p a) : Gives p (.ok a : Except ε α) := by
  rintro _ ⟨⟩
  exact h

theorem Gives.error {e : ε} : Gives p (.error e : Except ε α) := by
  rintro _ ⟨⟩

theorem Gives.bind {x : Except ε α} {f : α → Except ε β} (hx : Gives p x)
    (hf : ∀ a, p a → Gives q (f a)) : Gives q (x >>= f) := by
  intro b hb
  obtain ⟨a, ha, hfa⟩ := bind_eq_ok_iff.mp hb
  exact hf a (hx a ha) b hfa

theorem Gives.map {x : Except ε α} {f : α → β} (hx : Gives p x) (hf : ∀ a, p a → q (f a)) :
    Gives q (f <$> x) := by
  intro b hb
  obtain ⟨a, ha, rfl⟩ := map_eq_ok_iff.mp hb
  exact hf a (hx a ha)

/-- Nothing needs to be known of a first step if the second one always gives the property. -/
theorem Gives.andThen {x : Except ε α} {f : α → Except ε β} (hf : ∀ a, Gives q (f a)) :
    Gives q (x >>= f) :=
  Gives.bind (p := fun _ => True) (fun _ _ => trivial) fun a _ => hf a

/-- What every step preserves holds after all of them. -/
theorem Gives.foldlM {f : β → α → Except ε β} (hf : ∀ b a, q b → Gives q (f b a)) :
    ∀ {b : β} (as : List α), q b → Gives q (as.foldlM f b)
  | b, [], hb => by
    rw [List.foldlM_nil]
    exact .ok hb
  | b, a :: as, hb => by
    rw [List.foldlM_cons]
    exact (hf b a hb).bind fun _ h => Gives.foldlM hf as h

theorem Gives.mapError {x : Except ε α} {ε' : Type} {f : ε → ε'} (hx : Gives p x) :
    Gives p (x.mapError f) := by
  cases x with
  | error e => exact .error
  | ok a => exact .ok (hx a rfl)

end Lexgen.Data
