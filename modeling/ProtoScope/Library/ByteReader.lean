/-
Readers of byte streams.

A reader takes bytes from the front of its input and leaves the rest.  `Reads` says that it
takes exactly the given bytes, whatever follows them; `Extends` that it does the same on an
input that goes on longer.  Both are kept by running one reader after another.
-/
import Mathlib.Tactic.Common

namespace ProtoScope.Library

abbrev ByteReader (ε α : Type) : Type := StateT (List UInt8) (Except ε) α

namespace ByteReader

variable {ε α β : Type}

/-- The reader takes these bytes and gives `a`. -/
def Reads (reader : ByteReader ε α) (bytes : List UInt8) (a : α) : Prop :=
  ∀ rest, reader (bytes ++ rest) = .ok (a, rest)

/-- The reader looks only at the bytes it takes. -/
def Extends (reader : ByteReader ε α) : Prop :=
  ∀ input a rest, reader input = .ok (a, rest) →
    ∀ more, reader (input ++ more) = .ok (a, rest ++ more)

/-- The next `n` bytes. -/
def take (error : ε) (n : ℕ) : ByteReader ε (List UInt8) := fun input =>
  if n ≤ input.length then .ok (input.take n, input.drop n) else .error error

/-- A check or computation that takes no bytes. -/
def ofExcept (result : Except ε α) : ByteReader ε α := fun input =>
  match result with
  | .ok a => .ok (a, input)
  | .error error => .error error

theorem run_bind (reader : ByteReader ε α) (next : α → ByteReader ε β) (input : List UInt8) :
    (reader >>= next) input =
      match reader input with
      | .ok (a, rest) => next a rest
      | .error error => .error error := by
  show Except.bind (reader input) (fun result => next result.1 result.2) = _
  cases reader input <;> rfl

theorem bind_eq_ok {reader : ByteReader ε α} {next : α → ByteReader ε β}
    {input rest : List UInt8} {b : β} :
    (reader >>= next) input = .ok (b, rest) ↔
      ∃ a middle, reader input = .ok (a, middle) ∧ next a middle = .ok (b, rest) := by
  rw [run_bind]
  cases reader input with
  | error error => simp
  | ok result =>
    constructor
    · intro h
      exact ⟨result.1, result.2, rfl, h⟩
    · rintro ⟨a, middle, heq, h⟩
      cases heq
      exact h

theorem ofExcept_eq_ok {result : Except ε α} {input rest : List UInt8} {a : α} :
    ofExcept result input = .ok (a, rest) ↔ result = .ok a ∧ input = rest := by
  unfold ofExcept
  cases result with
  | error error => simp
  | ok b => simp

theorem take_eq_ok {error : ε} {n : ℕ} {input bytes rest : List UInt8}
    (h : take error n input = .ok (bytes, rest)) : bytes.length = n ∧ input = bytes ++ rest := by
  unfold take at h
  split at h
  · rename_i hn
    cases h
    exact ⟨List.length_take_of_le hn, (List.take_append_drop n input).symm⟩
  · cases h

/-! ### Taking exactly the given bytes -/

namespace Reads

theorem pure (a : α) : Reads (pure a : ByteReader ε α) [] a := fun _ => rfl

theorem bind {reader : ByteReader ε α} {next : α → ByteReader ε β} {first second : List UInt8}
    {a : α} {b : β} (h : Reads reader first a) (hnext : Reads (next a) second b) :
    Reads (reader >>= next) (first ++ second) b := by
  intro rest
  rw [run_bind, List.append_assoc, h]
  exact hnext rest

theorem take (error : ε) (bytes : List UInt8) :
    Reads (take error bytes.length) bytes bytes := by
  intro rest
  unfold ByteReader.take
  rw [if_pos (by rw [List.length_append]; omega), List.take_left, List.drop_left]

/-- A check that passes takes nothing. -/
theorem ofExcept_bind {result : Except ε α} {next : α → ByteReader ε β} {bytes : List UInt8}
    {a : α} {b : β} (h : result = .ok a) (hnext : Reads (next a) bytes b) :
    Reads (ofExcept result >>= next) bytes b := by
  intro rest
  rw [run_bind, h]
  exact hnext rest

end Reads

/-! ### Reading a longer input -/

namespace Extends

theorem pure (a : α) : Extends (pure a : ByteReader ε α) := by
  intro input b rest h more
  cases h
  rfl

theorem bind {reader : ByteReader ε α} {next : α → ByteReader ε β} (h : Extends reader)
    (hnext : ∀ a, Extends (next a)) : Extends (reader >>= next) := by
  intro input b rest hok more
  obtain ⟨a, middle, hfirst, hsecond⟩ := bind_eq_ok.mp hok
  exact bind_eq_ok.mpr ⟨a, middle ++ more, h _ _ _ hfirst more, hnext a _ _ _ hsecond more⟩

theorem take (error : ε) (n : ℕ) : Extends (take error n) := by
  intro input a rest h more
  unfold ByteReader.take at h ⊢
  split at h
  · rename_i hn
    cases h
    rw [if_pos (by rw [List.length_append]; omega), List.take_append_of_le_length hn,
      List.drop_append_of_le_length hn]
  · cases h

theorem ofExcept (result : Except ε α) : Extends (ofExcept result) := by
  intro input a rest h more
  obtain ⟨hok, rfl⟩ := ofExcept_eq_ok.mp h
  exact ofExcept_eq_ok.mpr ⟨hok, rfl⟩

end Extends

end ByteReader

end ProtoScope.Library
