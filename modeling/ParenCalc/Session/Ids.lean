import ParenCalc.Text.Hex
/-!
# Session ids

Ids are drawn from an endless source.  A source may repeat itself, but past any draw it has an id
outside any finite set, so looking for an id that is not in use comes to an end.
-/
set_option autoImplicit false

namespace ParenCalc

/-- The ids in the order in which they are drawn. -/
structure IdSource where
  draw : Nat → Text
  fresh : ∀ (live : List Text) (start : Nat), ∃ n, start ≤ n ∧ draw n ∉ live

namespace IdSource

/-- The first draw from `n` on that is not in use, with no such draw between `start` and `n`. -/
def search (ids : IdSource) (live : List Text) (start n : Nat)
    (used : ∀ k, start ≤ k → k < n → ids.draw k ∈ live) : Nat :=
  if h : ids.draw n ∈ live then
    search ids live start (n + 1) fun k low high =>
      if e : k = n then e ▸ h else used k low (by omega)
  else n
termination_by (ids.fresh live start).choose - n
decreasing_by
  have found := (ids.fresh live start).choose_spec
  have : ¬ (ids.fresh live start).choose < n := fun low =>
    found.2 (used _ found.1 low)
  have : (ids.fresh live start).choose ≠ n := fun e => found.2 (e ▸ h)
  omega

def firstFree (ids : IdSource) (live : List Text) (start : Nat) : Nat :=
  ids.search live start start fun k low high => absurd high (by omega)

/-- The number in hexadecimal with at least 32 digits. -/
def numbered (n : Nat) : Text := Text.hex (max 32 (n.log2 / 4 + 1)) n

def number (t : Text) : Nat := t.foldl (fun n c => n * 16 + c.hexValue?.getD 0) 0

theorem number_hex (width n : Nat) : number (Text.hex width n) = n % Nat.pow 16 width := by
  induction width generalizing n with
  | zero => simp [Text.hex, number, Nat.mod_one]
  | succ width ih =>
      have digit := CodePoint.hexValue?_ofHexDigit (n % 16) (Nat.mod_lt n (by decide))
      have step : number (Text.hex (width + 1) n) =
          number (Text.hex width (n / 16)) * 16 + n % 16 := by
        simp [Text.hex, number, List.foldl_append, digit]
      rw [step, ih, Nat.pow_eq, Nat.pow_eq, Nat.pow_succ', Nat.mod_mul, Nat.mul_comm,
        Nat.add_comm]

theorem numbered_injective (a b : Nat) (h : numbered a = numbered b) : a = b := by
  have bound (n width : Nat) (le : n.log2 / 4 + 1 ≤ width) : n < Nat.pow 16 width := by
    rw [Nat.pow_eq, show 16 = 2 ^ 4 from rfl, ← Nat.pow_mul]
    exact Nat.lt_of_lt_of_le Nat.lt_log2_self (Nat.pow_le_pow_right (by decide) (by omega))
  have widths := congrArg List.length h
  rw [numbered, numbered, Text.length_hex, Text.length_hex] at widths
  have values := congrArg number h
  rw [numbered, numbered, number_hex, number_hex, Nat.mod_eq_of_lt (bound a _ (by omega)),
    Nat.mod_eq_of_lt (bound b _ (by omega))] at values
  exact values

/-- Past some number no numbered id lies in a given list. -/
theorem eventually_not_mem (live : List Text) (start : Nat) :
    ∃ n, start ≤ n ∧ ∀ m, n ≤ m → numbered m ∉ live := by
  induction live with
  | nil => exact ⟨start, Nat.le_refl _, by simp⟩
  | cons id rest ih =>
      obtain ⟨n, low, clear⟩ := ih
      by_cases hit : ∃ m, n ≤ m ∧ numbered m = id
      · obtain ⟨m, le, eq⟩ := hit
        refine ⟨m + 1, by omega, fun k above => ?_⟩
        rw [List.mem_cons]
        rintro (same | inRest)
        · have := numbered_injective k m (same.trans eq.symm)
          omega
        · exact clear k (by omega) inRest
      · refine ⟨n, low, fun k above => ?_⟩
        rw [List.mem_cons]
        rintro (same | inRest)
        · exact hit ⟨k, above, same⟩
        · exact clear k above inRest

/-- The ids of a script, and after them numbered ids from `base + 1` on. -/
def ofScript (script : List Text) (base : Nat) : IdSource where
  draw n := script[n]?.getD (numbered (base + 1 + (n - script.length)))
  fresh live start := by
    obtain ⟨n, low, clear⟩ := eventually_not_mem live (base + 1 + start)
    refine ⟨script.length + (n - (base + 1)), by omega, ?_⟩
    rw [List.getElem?_eq_none (by omega)]
    exact clear _ (by omega)

end IdSource

end ParenCalc
