/-
Counters of 64 bits that stay at their greatest value instead of wrapping.
-/
import LineCensus.Word

namespace LineCensus

/-- A number of lines or of files. -/
structure Count where
  value : Nat
  value_lt : value < wordSize := by decide
deriving DecidableEq

namespace Count

/-- The greatest counter value. -/
def limit : Nat := wordSize - 1

/-- The counter that holds `n`, or the greatest one when `n` is too large. -/
def ofNat (n : Nat) : Count := ⟨min n limit, by simp only [limit, wordSize]; omega⟩

instance : Zero Count := ⟨⟨0, by decide⟩⟩
instance : Inhabited Count := ⟨0⟩
instance : Add Count := ⟨fun a b => ofNat (a.value + b.value)⟩
instance : ToString Count := ⟨fun a => toString a.value⟩

/-- The counter after one more. -/
def increment (a : Count) : Count := ofNat (a.value + 1)

/-- The sum of counters, added from the left. -/
def sum (as : List Count) : Count := as.foldl (· + ·) 0

/-- The order of the values. -/
def compare (a b : Count) : Ordering := Ord.compare a.value b.value

@[simp] theorem value_zero : (0 : Count).value = 0 := rfl

theorem value_ofNat (n : Nat) : (ofNat n).value = min n limit := rfl

theorem value_add (a b : Count) : (a + b).value = min (a.value + b.value) limit := rfl

theorem value_increment (a : Count) : a.increment.value = min (a.value + 1) limit := rfl

theorem value_le_limit (a : Count) : a.value ≤ limit := by
  have := a.value_lt
  simp only [limit]; omega

theorem eq_of_value_eq {a b : Count} (h : a.value = b.value) : a = b := by
  cases a
  cases b
  cases h
  rfl

end Count

end LineCensus
